import SphereMotion.Motion.Geodesic
import SphereMotion.Motion.Plane
import SphereMotion.Motion.Rotational
import SphereMotion.Motion.Tangential
import SphereMotion.Motion.Translational

namespace SphereMotion

variable {α : Type} [Scalar α]

/-- A way to apply a planar motion vector on the sphere. -/
inductive MotionModel (α : Type) [Scalar α] where
  | translational
  | spatial (m : SpatialTranslation α)
  | tangential (m : Tangential α)
  | rotational (m : Rotational α)
  | plane (m : PlaneMotion α)
  | geodesic (m : Geodesic α)

namespace MotionModel

/-- Moves every point of a block around `center`. A zero motion leaves the block as it is. -/
def move (model : MotionModel α) (g : Grid (Vec2 α)) (motion center : Vec2 α) : Grid (Vec2 α) :=
  match model with
  | translational => PixelTranslation.move g motion
  | spatial m => m.move g motion center
  | tangential m => m.move g motion center
  | rotational m => m.move g motion center
  | plane m => m.move g motion
  | geodesic m => m.move g motion center

theorem shape_move (model : MotionModel α) (g : Grid (Vec2 α)) (motion center : Vec2 α) :
    (model.move g motion center).rows = g.rows ∧ (model.move g motion center).cols = g.cols := by
  by_cases still : motion.isZero = true
  · cases model <;> simp [move, PixelTranslation.move, SpatialTranslation.move, Tangential.move,
      Rotational.move, PlaneMotion.move, Geodesic.move, still]
  · cases model <;> simp [move, PixelTranslation.move, SpatialTranslation.move, Tangential.move,
      Rotational.move, PlaneMotion.move, PlaneMotion.moveOnPlane, PlaneMotion.ofPlane, PlaneMotion.turnOut,
      PlaneMotion.toPlane, PlaneMotion.turnIn, Perspective.projectGrid, Perspective.unprojectGrid,
      PlanePoint.projectGrid, PlanePoint.unprojectGrid, Geodesic.move, Geodesic.moveRotated, still]

def movePoint (model : MotionModel α) (position motion center : Vec2 α) : Vec2 α :=
  (model.move (.single position) motion center).get ⟨0, by simp [Grid.size, shape_move, Grid.single]⟩

/-- The motion vector that takes `position` to `shifted` in the block around `center`. It has undefined
components where the model cannot tell. -/
def vectorFor (model : MotionModel α) (position shifted center : Vec2 α) : Vec2 α :=
  match model with
  | translational => PixelTranslation.vectorFor position shifted
  | spatial m => m.vectorFor position shifted center
  | tangential m => m.vectorFor position shifted center
  | rotational m => m.vectorFor position shifted center
  | plane m => m.vectorFor position shifted
  | geodesic m => m.vectorFor position shifted center

end MotionModel

end SphereMotion
