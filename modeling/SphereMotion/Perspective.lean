import SphereMotion.Projection

namespace SphereMotion

open Scalar

variable {α : Type} [Scalar α]

/-- A point of a perspective image. Directions behind the camera land mirrored on the *virtual* image plane;
the flag is needed to find them again and turns motion on the plane around. -/
structure PlanePoint (α : Type) where
  point : Vec2 α
  isVirtual : Bool

namespace PlanePoint

def sign (p : PlanePoint α) : α := if p.isVirtual then -1 else 1

/-- Moves the point within the plane; on the virtual image plane the motion is negated. -/
def translate (motion : Vec2 α) (p : PlanePoint α) : PlanePoint α :=
  ⟨⟨p.point.x + p.sign * motion.x, p.point.y + p.sign * motion.y⟩, p.isVirtual⟩

/-- The image at a signed radius from the center; a negative radius lies on the virtual image plane. -/
def ofRadius (center : Vec2 α) (radius azimuth : α) : PlanePoint α :=
  ⟨Polar.toVec2 ⟨radius, azimuth⟩ + center, radius < 0⟩

/-- The world direction of camera angles, or the opposite one for a virtual point. -/
def direction (angle azimuth : α) (isVirtual : Bool) : Vec3 α :=
  let front := (Spherical.direction angle azimuth).ofCamera
  if isVirtual then -front else front

/-- The images of directions, for a camera that takes a polar angle to `radius`. -/
def projectGrid (radius : α → α) (center : Vec2 α) (g : Grid (Vec3 α)) : Grid (PlanePoint α) :=
  (g.map Vec3.toCamera).map Vec3.toSpherical |>.map fun s => ofRadius center (radius s.polar) s.azimuth

/-- The directions of images, for a camera that takes a radius to the polar angle `angle`. The points are
moved by the opposite of the center. -/
def unprojectGrid (angle : α → α) (center : Vec2 α) (g : Grid (PlanePoint α)) : Grid (Vec3 α) :=
  (g.map fun p => ((p.point + -center).toPolar, p.isVirtual)).map fun (polar, isVirtual) =>
    direction (angle polar.radius) polar.azimuth isVirtual

end PlanePoint

structure Perspective (α : Type) where
  focalLength : α
  center : Vec2 α

/-- A pinhole camera whose radius is read from a table over the polar angle. -/
structure TabulatedPerspective (α : Type) [Scalar α] where
  focalLength : α
  center : Vec2 α
  table : SampledTable α

namespace Perspective

/-- The signed image radius of a polar angle, negative behind the camera. -/
def radius (p : Perspective α) (angle : α) : α := p.focalLength * tan angle

def angle (p : Perspective α) (radius : α) : α := atan (radius / p.focalLength)

def project (p : Perspective α) (v : Vec3 α) : PlanePoint α :=
  let s := v.toCamera.toSpherical
  .ofRadius p.center (p.radius s.polar) s.azimuth

def unproject (p : Perspective α) (image : PlanePoint α) : Vec3 α :=
  let polar := (image.point - p.center).toPolar
  PlanePoint.direction (p.angle polar.radius) polar.azimuth image.isVirtual

def projectGrid (p : Perspective α) : Grid (Vec3 α) → Grid (PlanePoint α) :=
  PlanePoint.projectGrid p.radius p.center

def unprojectGrid (p : Perspective α) : Grid (PlanePoint α) → Grid (Vec3 α) :=
  PlanePoint.unprojectGrid p.angle p.center

def tabulate (p : Perspective α) (maxRadius : α) (samples : Nat) : Except Fault (TabulatedPerspective α) := do
  let table ← SampledTable.sample 0 (p.angle maxRadius) samples p.radius
  .ok ⟨p.focalLength, p.center, table⟩

end Perspective

namespace TabulatedPerspective

/-- The signed image radius; an angle behind the camera is folded to the front and its radius negated. -/
def radius (p : TabulatedPerspective α) (angle : α) : α :=
  if pi / 2 < angle then -p.table.lookup (pi - angle) else p.table.lookup angle

def angle (p : TabulatedPerspective α) (radius : α) : α := p.table.inverseLookup radius

def projectGrid (p : TabulatedPerspective α) : Grid (Vec3 α) → Grid (PlanePoint α) :=
  PlanePoint.projectGrid p.radius p.center

def unprojectGrid (p : TabulatedPerspective α) : Grid (PlanePoint α) → Grid (Vec3 α) :=
  PlanePoint.unprojectGrid p.angle p.center

end TabulatedPerspective

end SphereMotion
