import SphereMotion.Motion.TangentFrame

namespace SphereMotion

open Scalar

variable {α : Type} [Scalar α]

/-- Translation on the plane that touches the sphere at the block center. -/
structure Tangential (α : Type) [Scalar α] where
  projection : Projection α

namespace Tangential

/-- The image of a direction on the tangent plane, undefined when it faces away from the block center. -/
def coordinates (frame : TangentFrame α) (v : Vec3 α) : Vec2 α :=
  let l := frame.toLocal v
  if l.z ≤ 0 then ⟨undefined, undefined⟩ else ⟨l.x / l.z, l.y / l.z⟩

def move (m : Tangential α) (g : Grid (Vec2 α)) (motion center : Vec2 α) : Grid (Vec2 α) :=
  if motion.isZero then g else
    let frame := TangentFrame.ofCenter m.projection center
    let step := motion.scale m.projection.angleResolution
    m.projection.projectGrid <| (m.projection.unprojectGrid g).map fun v =>
      let t := coordinates frame v + step
      frame.toWorld ⟨t.x, t.y, 1⟩

def vectorFor (m : Tangential α) (position shifted center : Vec2 α) : Vec2 α :=
  let frame := TangentFrame.ofCenter m.projection center
  let before := coordinates frame (m.projection.unproject position)
  let after := coordinates frame (m.projection.unproject shifted)
  (after - before).unscale m.projection.angleResolution

end Tangential

end SphereMotion
