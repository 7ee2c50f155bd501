import SphereMotion.Motion.TangentFrame
import SphereMotion.Rotation

namespace SphereMotion

open Scalar

variable {α : Type} [Scalar α]

/-- Rotation of the whole sphere that carries the block center along the motion vector. -/
structure Rotational (α : Type) [Scalar α] where
  projection : Projection α

namespace Rotational

/-- The world rotation of a motion vector. In the tangent frame of the block center it is a pitch about the
first axis followed by a yaw about the second. -/
def rotation (m : Rotational α) (motion center : Vec2 α) : Mat3 α :=
  let basis := (TangentFrame.ofCenter m.projection center).basis
  let yaw := motion.x * m.projection.angleResolution
  let pitch := motion.y * m.projection.angleResolution
  (basis.mul ((Mat3.ofAxisAngle .unitY yaw).mul (Mat3.ofAxisAngle .unitX (-pitch)))).mul basis.transpose

/-- The azimuth and the elevation of a local direction as seen along the third axis. -/
def azimuthElevation (l : Vec3 α) : Vec2 α := ⟨atan2 l.x l.z, atan2 l.y (sqrt (l.x * l.x + l.z * l.z))⟩

def move (m : Rotational α) (g : Grid (Vec2 α)) (motion center : Vec2 α) : Grid (Vec2 α) :=
  if motion.isZero then g else
    let rotation := m.rotation motion center
    m.projection.projectGrid ((m.projection.unprojectGrid g).map rotation.apply)

/-- The differences of azimuth and elevation in the frame of the block center. This is exact where the position
is the block center, and an estimate elsewhere. -/
def vectorFor (m : Rotational α) (position shifted center : Vec2 α) : Vec2 α :=
  let frame := TangentFrame.ofCenter m.projection center
  let before := azimuthElevation (frame.toLocal (m.projection.unproject position))
  let after := azimuthElevation (frame.toLocal (m.projection.unproject shifted))
  (after - before).unscale m.projection.angleResolution

end Rotational

end SphereMotion
