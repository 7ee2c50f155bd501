import SphereMotion.Coordinates
import SphereMotion.Rotation

namespace SphereMotion

open Scalar

variable {α : Type} [Scalar α]

/-- The rotation that takes an epipole to `+z`. A zero epipole keeps the world frame; for an epipole straight
down it is the half turn about `+x`. -/
def Mat3.toPole (epipole : Vec3 α) : Mat3 α :=
  if epipole.normSquared == 0 then .identity
  else (Mat3.rotationBetween epipole .unitZ).getD (.ofAxisAngle .unitX pi)

/-- An epipole with its rotation to the pole. -/
structure EpipoleFrame (α : Type) [Scalar α] where
  epipole : Vec3 α
  rotation : Mat3 α
  rotation_eq : rotation = .toPole epipole

namespace EpipoleFrame

def ofEpipole (epipole : Vec3 α) : EpipoleFrame α := ⟨epipole, .toPole epipole, rfl⟩

/-- The polar angle from the epipole and the azimuth about it, with the length of the direction. -/
def spherical (f : EpipoleFrame α) (v : Vec3 α) : Spherical α := (f.rotation.apply v).toSpherical

def direction (f : EpipoleFrame α) (polar azimuth : α) : Vec3 α :=
  f.rotation.transpose.apply (Spherical.direction polar azimuth)

/-- The frame of an epipole, and whether it had to be computed anew. -/
def set (f : EpipoleFrame α) (epipole : Vec3 α) : EpipoleFrame α × Bool :=
  if f.epipole.same epipole then (f, false) else (ofEpipole epipole, true)

end EpipoleFrame

end SphereMotion
