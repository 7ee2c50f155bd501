import SphereMotion.Grid.Points
import SphereMotion.Lens

namespace SphereMotion

open Scalar

variable {α : Type} [Scalar α]

/-- A world direction in the frame `(right, down, forward)` of the camera. The world has `x` forward, `y` left
and `z` up, and the camera looks along `x`. -/
def Vec3.toCamera (v : Vec3 α) : Vec3 α := ⟨-v.y, -v.z, v.x⟩

/-- The world direction of a vector in the frame of the camera. -/
def Vec3.ofCamera (v : Vec3 α) : Vec3 α := ⟨v.z, -v.x, -v.y⟩

structure LensProjection (α : Type) [Scalar α] where
  lens : Lens α
  center : Vec2 α

namespace LensProjection

def unproject (p : LensProjection α) (point : Vec2 α) : Vec3 α :=
  let polar := (point - p.center).toPolar
  (Spherical.direction (p.lens.angle polar.radius) polar.azimuth).ofCamera

def project (p : LensProjection α) (v : Vec3 α) : Vec2 α :=
  let s := v.toCamera.toSpherical
  Polar.toVec2 ⟨p.lens.radius s.polar, s.azimuth⟩ + p.center

/-- Unprojects a grid stage by stage, moving its points by the opposite of the center. -/
def unprojectGrid (p : LensProjection α) (g : Grid (Vec2 α)) : Grid (Vec3 α) :=
  (g.translated (-p.center)).map Vec2.toPolar
    |>.map (fun polar => Spherical.direction (p.lens.angle polar.radius) polar.azimuth)
    |>.map Vec3.ofCamera

def projectGrid (p : LensProjection α) (g : Grid (Vec3 α)) : Grid (Vec2 α) :=
  ((g.map Vec3.toCamera).map Vec3.toSpherical
    |>.map (fun s => Polar.toVec2 ⟨p.lens.radius s.polar, s.azimuth⟩)).translated p.center

end LensProjection

/-- An equirectangular panorama: columns are linear in the azimuth, rows in the polar angle from world up.
`offset` is the place of the sample inside its pixel. -/
structure Panorama (α : Type) where
  width : α
  height : α
  offset : α

namespace Panorama

/-- The direction seen at a point, by its angles. -/
def angles (p : Panorama α) (point : Vec2 α) : Spherical α :=
  ⟨1, (point.y + p.offset) / p.height * pi, -(point.x + p.offset) / p.width * 2 * pi⟩

/-- The point at which a direction is seen. Positive azimuths go back a whole turn, so that the columns run from one
edge to the other. -/
def place (p : Panorama α) (s : Spherical α) : Vec2 α :=
  let azimuth := if 0 < s.azimuth then s.azimuth - 2 * pi else s.azimuth
  ⟨-azimuth / (2 * pi) * p.width - p.offset, s.polar / pi * p.height - p.offset⟩

def unproject (p : Panorama α) (point : Vec2 α) : Vec3 α := (p.angles point).toVec3

def project (p : Panorama α) (v : Vec3 α) : Vec2 α := p.place v.toSpherical

/-- Unprojects a grid by way of the grid of its angles. -/
def unprojectGrid (p : Panorama α) (g : Grid (Vec2 α)) : Grid (Vec3 α) := (g.map p.angles).map Spherical.toVec3

def projectGrid (p : Panorama α) (g : Grid (Vec3 α)) : Grid (Vec2 α) := (g.map Vec3.toSpherical).map p.place

theorem unprojectGrid_eq_map (p : Panorama α) (g : Grid (Vec2 α)) : p.unprojectGrid g = g.map p.unproject :=
  Grid.map_map p.angles Spherical.toVec3 g

theorem projectGrid_eq_map (p : Panorama α) (g : Grid (Vec3 α)) : p.projectGrid g = g.map p.project :=
  Grid.map_map Vec3.toSpherical p.place g

end Panorama

inductive Projection (α : Type) [Scalar α] where
  | lens (p : LensProjection α)
  | panorama (p : Panorama α)

namespace Projection

/-- The unit direction seen at a planar point. -/
def unproject : Projection α → Vec2 α → Vec3 α
  | lens p => p.unproject
  | panorama p => p.unproject

/-- The planar point at which a direction of any positive length is seen. -/
def project : Projection α → Vec3 α → Vec2 α
  | lens p => p.project
  | panorama p => p.project

def unprojectGrid : Projection α → Grid (Vec2 α) → Grid (Vec3 α)
  | lens p, g => p.unprojectGrid g
  | panorama p, g => p.unprojectGrid g

def projectGrid : Projection α → Grid (Vec3 α) → Grid (Vec2 α)
  | lens p, g => p.projectGrid g
  | panorama p, g => p.projectGrid g

@[simp] theorem rows_unprojectGrid (p : Projection α) (g : Grid (Vec2 α)) : (p.unprojectGrid g).rows = g.rows := by
  cases p <;> rfl

@[simp] theorem cols_unprojectGrid (p : Projection α) (g : Grid (Vec2 α)) : (p.unprojectGrid g).cols = g.cols := by
  cases p <;> rfl

@[simp] theorem rows_projectGrid (p : Projection α) (g : Grid (Vec3 α)) : (p.projectGrid g).rows = g.rows := by
  cases p <;> rfl

@[simp] theorem cols_projectGrid (p : Projection α) (g : Grid (Vec3 α)) : (p.projectGrid g).cols = g.cols := by
  cases p <;> rfl

/-- Pixels per radian near the optical axis. -/
def focalLength : Projection α → α
  | lens p => p.lens.focalLength
  | panorama p => p.width / (2 * pi)

/-- Radians per pixel near the optical axis. -/
def angleResolution (p : Projection α) : α := 1 / p.focalLength

end Projection

inductive ProjectionParams (α : Type) where
  | equisolid (focalLength centerX centerY : α)
  | calibrated (coefficients : List α) (centerX centerY : α)
  | equirectangular (width height offset : α)

namespace ProjectionParams

/-- The projection with these parameters; a calibrated lens is sampled `samples` times. -/
def build (params : ProjectionParams α) (samples : Nat) : Except Fault (Projection α) :=
  match params with
  | equisolid focalLength centerX centerY => .ok (.lens ⟨.equisolid focalLength, ⟨centerX, centerY⟩⟩)
  | calibrated coefficients centerX centerY => do
    let lens ← CalibratedLens.build coefficients samples
    .ok (.lens ⟨.calibrated lens, ⟨centerX, centerY⟩⟩)
  | equirectangular width height offset => .ok (.panorama ⟨width, height, offset⟩)

end ProjectionParams

end SphereMotion
