import SphereMotion.Motion.Model
import SphereMotion.SubblockPicture

namespace SphereMotion

variable {α : Type} [Scalar α]

/-- A motion model of an engine, together with the cache that it moves blocks of the picture with. -/
inductive Slot (α : Type) [Scalar α] where
  | plain (m : MotionModel α)
  | plane (m : PlaneMotion α) (cache : PlaneCache α)
  | geodesic (m : Geodesic α) (cache : GeodesicCache α)

namespace Slot

/-- The slot of a model, its cache filled from the directions of the whole picture. The epipole of the
camera-pose model is set at each call. -/
def build (id : ModelId) (flavor : GeodesicFlavor) (projection : Projection α) (sphere : Grid (Vec3 α)) : Slot α :=
  let ofPlane (plane : MotionPlane) : Slot α := .plane ⟨projection, plane⟩ (.seed ⟨projection, plane⟩ sphere)
  let ofEpipole (epipole : Vec3 α) : Slot α := .geodesic (.build projection flavor epipole) (.seed sphere)
  match id with
  | .classic => .plain .translational
  | .planeFrontBack => ofPlane .frontBack
  | .planeLeftRight => ofPlane .leftRight
  | .planeTopBottom => ofPlane .topBottom
  | .spatial => .plain (.spatial ⟨projection⟩)
  | .tangential => .plain (.tangential ⟨projection⟩)
  | .rotational => .plain (.rotational ⟨projection⟩)
  | .geodesicCameraPose => ofEpipole .zero
  | .geodesicX => ofEpipole .unitX
  | .geodesicY => ofEpipole .unitY
  | .geodesicZ => ofEpipole .unitZ

def model : Slot α → MotionModel α
  | plain m => m
  | plane m _ => .plane m
  | geodesic m _ => .geodesic m

def setEpipole (slot : Slot α) (epipole : Option (Vec3 α)) : Slot α :=
  match slot, epipole with
  | geodesic m cache, some e => geodesic (m.setEpipole e) cache
  | _, _ => slot

def moveCached (slot : Slot α) (window : Window) (samples : Grid (Vec2 α)) (motion center : Vec2 α) :
    Except Fault (Grid (Vec2 α) × Slot α) :=
  match slot with
  | plain m => .ok (m.move samples motion center, slot)
  | plane m cache => do
    let (moved, cache) ← m.moveCached cache window samples motion
    .ok (moved, plane m cache)
  | geodesic m cache => do
    let (moved, cache) ← m.moveCached cache window samples motion center
    .ok (moved, geodesic m cache)

end Slot

/-- Moves blocks and converts motion vectors under the motion models of a configuration. -/
structure Engine (α : Type) [Scalar α] where
  config : Config
  projection : Projection α
  picture : SubblockPicture α
  epipoles : EpipoleList
  slots : List (ModelId × Slot α)

/-- A motion vector that was estimated under one model and is asked for under another. The position is moved
in the block around the candidate center, and the result is explained in the block around the current center. -/
structure Conversion (α : Type) where
  vector : MotionVector
  precision : Nat
  source : ModelId
  target : ModelId
  position : Vec2 α
  candidateCenter : Vec2 α
  currentCenter : Vec2 α
  sourcePair : PicturePair
  targetPair : PicturePair

namespace Engine

/-- The engine of a luma picture. The sub-block offset is checked before the size. -/
def build (projection : Projection α) (width height : Nat) (config : Config) (epipoles : EpipoleList) :
    Except ConfigError (Engine α) := do
  let offset ← Config.offset config.offsetIndex
  let picture ← SubblockPicture.build width height offset
  let sphere := projection.unprojectGrid picture.grid
  let slots := config.active.toList.map fun id => (id, Slot.build id config.flavor projection sphere)
  return { config, projection, picture, epipoles, slots }

def slot? (e : Engine α) (model : ModelId) : Option (Slot α) := e.slots.lookup model

def isActive (e : Engine α) (model : ModelId) : Bool := (e.slot? model).isSome

def setSlot (e : Engine α) (model : ModelId) (slot : Slot α) : Engine α :=
  { e with slots := e.slots.map fun (id, old) => (id, if id = model then slot else old) }

def slot (e : Engine α) (model : ModelId) : Except EngineError (Slot α) :=
  match e.slot? model with
  | some slot => .ok slot
  | none => .error (.inactiveModel model)

/-- The epipole of a picture pair for the camera-pose model; no other model needs one. -/
def epipole (e : Engine α) (model : ModelId) (pair : PicturePair) : Except EngineError (Option (Vec3 α)) :=
  if model = .geodesicCameraPose then
    match e.epipoles.find pair with
    | .ok epipole => .ok (some epipole)
    | .error cause => .error (.epipole cause)
  else .ok none

/-- Moves every sub-block of a block. The engine that comes with the answer is the one to go on with; after
an error that is the engine as it was. -/
def reproject (e : Engine α) (moved : MovedBlock) (model : ModelId) (pair : PicturePair) :
    Except EngineError (SubblockCorners × Engine α) := do
  let slot ← e.slot model
  let block ← e.picture.locate moved.block moved.component moved.chroma
  let epipole ← e.epipole model pair
  let motion := moved.vector.toVec2 moved.precision
  let slot := slot.setEpipole epipole
  if block.isLuma then
    let (samples, picture) ← e.picture.lumaBlock block.window
    let (targets, slot) ← (slot.moveCached block.window samples motion block.center).mapError .fault
    return (picture.settle block moved.precision samples targets, { e with picture }.setSlot model slot)
  else
    let samples := e.picture.chromaBlock block
    let targets := slot.model.move samples motion block.center
    return (e.picture.settle block moved.precision samples targets, e.setSlot model slot)

def sameEpipole : Option (Vec3 α) → Option (Vec3 α) → Bool
  | none, none => true
  | some v, some w => v.same w
  | _, _ => false

/-- Expresses a motion vector under another model. A vector that the target model cannot express becomes
zero. -/
def convert (e : Engine α) (c : Conversion α) : Except EngineError (MotionVector × Engine α) := do
  let source ← e.slot c.source
  let _ ← e.slot c.target
  let sourceEpipole ← e.epipole c.source c.sourcePair
  let targetEpipole ← e.epipole c.target c.targetPair
  if c.vector.isZero || (c.source = c.target && sameEpipole sourceEpipole targetEpipole) then
    return (c.vector, e)
  let source := source.setEpipole sourceEpipole
  let shifted := source.model.movePoint c.position (c.vector.toVec2 c.precision) c.candidateCenter
  let e := e.setSlot c.source source
  let target := (← e.slot c.target).setEpipole targetEpipole
  let motion := target.model.vectorFor c.position shifted c.currentCenter
  return ((MotionVector.ofVec2? motion c.precision).getD .zero, e.setSlot c.target target)

end Engine

end SphereMotion
