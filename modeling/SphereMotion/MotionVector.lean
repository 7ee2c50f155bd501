import SphereMotion.FixedPoint
import SphereMotion.Vector

namespace SphereMotion

/-- An integer motion vector. The number of its fractional bits is not part of it. -/
structure MotionVector where
  horizontal : Int32
  vertical : Int32
  deriving DecidableEq, Repr

namespace MotionVector

variable {α : Type} [Scalar α]

def zero : MotionVector := ⟨0, 0⟩

def isZero (mv : MotionVector) : Bool := mv.horizontal == 0 && mv.vertical == 0

/-- The motion in pixels. -/
def toVec2 (mv : MotionVector) (precision : Nat) : Vec2 α :=
  ⟨FixedPoint.toScalar mv.horizontal precision, FixedPoint.toScalar mv.vertical precision⟩

/-- The nearest motion vector, each component limited to 32 bits. -/
def ofVec2 (motion : Vec2 α) (precision : Nat) : MotionVector :=
  ⟨FixedPoint.ofScalar motion.x precision, FixedPoint.ofScalar motion.y precision⟩

/-- The nearest motion vector, if both components are finite and fit 32 bits. -/
def ofVec2? (motion : Vec2 α) (precision : Nat) : Option MotionVector := do
  let horizontal ← FixedPoint.ofScalar? motion.x precision
  let vertical ← FixedPoint.ofScalar? motion.y precision
  some ⟨horizontal, vertical⟩

end MotionVector

end SphereMotion
