import SphereMotion.Motion.Model
import SphereMotion.SubblockPicture

namespace SphereMotion

variable {α : Type} [Scalar α]

/-- A view in which motion is plain translation: the picture itself or one of the motion planes. -/
inductive Viewport where
  | classic
  | plane (plane : MotionPlane)
  deriving DecidableEq, Repr

def Viewport.plane? : Viewport → Option MotionPlane
  | classic => none
  | plane p => some p

structure PerPlane (β : Type) where
  frontBack : β
  leftRight : β
  topBottom : β

namespace PerPlane

variable {β : Type}

def ofFunction (value : MotionPlane → β) : PerPlane β := ⟨value .frontBack, value .leftRight, value .topBottom⟩

def get (values : PerPlane β) : MotionPlane → β
  | .frontBack => values.frontBack
  | .leftRight => values.leftRight
  | .topBottom => values.topBottom

def set (values : PerPlane β) (plane : MotionPlane) (value : β) : PerPlane β :=
  match plane with
  | .frontBack => { values with frontBack := value }
  | .leftRight => { values with leftRight := value }
  | .topBottom => { values with topBottom := value }

end PerPlane

/-- Moves blocks and converts motion vectors in four fixed viewports, all of them available. -/
structure ViewportEngine (α : Type) [Scalar α] where
  projection : Projection α
  picture : SubblockPicture α
  caches : PerPlane (PlaneCache α)

namespace ViewportEngine

/-- The engine of a luma picture. The sub-block offset is checked before the size. -/
def build (projection : Projection α) (width height offsetIndex : Nat) : Except ConfigError (ViewportEngine α) := do
  let offset ← Config.offset offsetIndex
  let picture ← SubblockPicture.build width height offset
  let sphere := projection.unprojectGrid picture.grid
  return ⟨projection, picture, .ofFunction fun plane => .seed ⟨projection, plane⟩ sphere⟩

def move (e : ViewportEngine α) (viewport : Viewport) (g : Grid (Vec2 α)) (motion : Vec2 α) : Grid (Vec2 α) :=
  match viewport with
  | .classic => PixelTranslation.move g motion
  | .plane plane => PlaneMotion.move ⟨e.projection, plane⟩ g motion

def movePoint (e : ViewportEngine α) (viewport : Viewport) (position motion : Vec2 α) : Vec2 α :=
  match viewport with
  | .classic => MotionModel.movePoint .translational position motion .origin
  | .plane plane => MotionModel.movePoint (.plane ⟨e.projection, plane⟩) position motion .origin

/-- Moves every sub-block of a block. The engine that comes with the answer is the one to go on with. -/
def reproject (e : ViewportEngine α) (moved : MovedBlock) (viewport : Viewport) :
    Except EngineError (SubblockCorners × ViewportEngine α) := do
  let block ← e.picture.locate moved.block moved.component moved.chroma
  let motion := moved.vector.toVec2 moved.precision
  if block.isLuma then
    let (samples, picture) ← e.picture.lumaBlock block.window
    let e := { e with picture }
    match viewport with
    | .classic =>
      return (picture.settle block moved.precision samples (PixelTranslation.move samples motion), e)
    | .plane plane =>
      let model : PlaneMotion α := ⟨e.projection, plane⟩
      let (targets, cache) ←
        (model.moveCached (e.caches.get plane) block.window samples motion).mapError .fault
      return (picture.settle block moved.precision samples targets, { e with caches := e.caches.set plane cache })
  else
    let samples := e.picture.chromaBlock block
    return (e.picture.settle block moved.precision samples (e.move viewport samples motion), e)

/-- Expresses a motion vector in another viewport. A vector becomes zero when its two ends are seen on different
sides of the target plane, or when the target cannot express it. -/
def convert (e : ViewportEngine α) (vector : MotionVector) (precision : Nat) (source target : Viewport)
    (position : Vec2 α) : MotionVector :=
  if source = target ∨ vector.isZero then vector else
    let shifted := e.movePoint source position (vector.toVec2 precision)
    let motion? : Option (Vec2 α) :=
      match target with
      | .classic => some (shifted - position)
      | .plane plane =>
        let model : PlaneMotion α := ⟨e.projection, plane⟩
        let start := model.toPlanePoint (e.projection.unproject position)
        let stop := model.toPlanePoint (e.projection.unproject shifted)
        let step := stop.point - start.point
        if start.isVirtual ≠ stop.isVirtual then none
        else some (if start.isVirtual then -step else step)
    (motion?.bind (MotionVector.ofVec2? · precision)).getD .zero

end ViewportEngine

end SphereMotion
