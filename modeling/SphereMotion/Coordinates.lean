import SphereMotion.Vector

namespace SphereMotion

open Scalar

/-- Polar coordinates in the plane, the azimuth measured from `+x` toward `+y`. A negative radius mirrors the
point through the origin. -/
@[ext] structure Polar (α : Type) where
  radius : α
  azimuth : α

/-- Spherical coordinates: the polar angle is measured from `+z`, the azimuth in the x-y plane from `+x`
toward `+y`. -/
@[ext] structure Spherical (α : Type) where
  radius : α
  polar : α
  azimuth : α

variable {α : Type} [Scalar α]

def Vec2.toPolar (p : Vec2 α) : Polar α := ⟨sqrt (p.x * p.x + p.y * p.y), atan2 p.y p.x⟩

def Polar.toVec2 (p : Polar α) : Vec2 α := ⟨p.radius * cos p.azimuth, p.radius * sin p.azimuth⟩

/-- The cosine of the polar angle is clamped to `[-1, 1]`, so that rounding on a unit vector never leaves the
domain of `acos`. The origin has polar angle zero. -/
def Vec3.toSpherical (v : Vec3 α) : Spherical α :=
  let radius := sqrt (v.x * v.x + v.y * v.y + v.z * v.z)
  ⟨radius, if radius == 0 then 0 else acos (clamp (v.z / radius) (-1) 1), atan2 v.y v.x⟩

def Spherical.toVec3 (s : Spherical α) : Vec3 α :=
  ⟨s.radius * sin s.polar * cos s.azimuth, s.radius * sin s.polar * sin s.azimuth, s.radius * cos s.polar⟩

def Spherical.direction (polar azimuth : α) : Vec3 α := Spherical.toVec3 ⟨1, polar, azimuth⟩

end SphereMotion
