import Mathlib
import SphereMotion.Proofs.CachedMotion
import SphereMotion.Request

namespace SphereMotion

open Scalar

theorem exists_of_map_eq_ok {ε β γ : Type} {first : Except ε β} {f : β → γ} {result : γ}
    (mapped : first.map f = .ok result) : ∃ value, first = .ok value ∧ f value = result := by
  cases first with
  | error cause => cases mapped
  | ok value => exact ⟨value, rfl, Except.ok.inj mapped⟩

/-- An answer that is computed without a memory agrees with one that comes with the next state. -/
inductive Follows {β σ : Type} (Good : σ → Prop) : Except EngineError β → Except EngineError (β × σ) → Prop
  | ok {value : β} {next : σ} (good : Good next) : Follows Good (.ok value) (.ok (value, next))
  | error {cause : EngineError} : Follows Good (.error cause) (.error cause)

namespace Follows

variable {β γ σ : Type} {Good : σ → Prop}

/-- What begins alike agrees if it goes on alike. -/
theorem bind {first : Except EngineError γ} {answer : γ → Except EngineError β}
    {serve : γ → Except EngineError (β × σ)}
    (each : ∀ value, first = .ok value → Follows Good (answer value) (serve value)) :
    Follows Good (first >>= answer) (first >>= serve) := by
  cases first with
  | error cause => exact .error
  | ok value => exact each value rfl

theorem map_fst {answer : Except EngineError β} {served : Except EngineError (β × σ)}
    (follows : Follows Good answer served) : served.map Prod.fst = answer := by
  cases follows <;> rfl

end Follows

variable {α : Type} [Scalar α]

/-- The motion model that an identifier stands for. Only that of the camera pose depends on the epipole. -/
def ModelId.motionModel (id : ModelId) (flavor : GeodesicFlavor) (projection : Projection α)
    (epipole : Option (Vec3 α)) : MotionModel α :=
  match id with
  | classic => .translational
  | planeFrontBack => .plane ⟨projection, .frontBack⟩
  | planeLeftRight => .plane ⟨projection, .leftRight⟩
  | planeTopBottom => .plane ⟨projection, .topBottom⟩
  | spatial => .spatial ⟨projection⟩
  | tangential => .tangential ⟨projection⟩
  | rotational => .rotational ⟨projection⟩
  | geodesicCameraPose => .geodesic (.build projection flavor (epipole.getD .zero))
  | geodesicX => .geodesic (.build projection flavor .unitX)
  | geodesicY => .geodesic (.build projection flavor .unitY)
  | geodesicZ => .geodesic (.build projection flavor .unitZ)

namespace Slot

/-- The slot of a model whose cache was filled from a picture and has not been asked for a block. -/
def seeded (picture : Grid (Vec2 α)) : MotionModel α → Slot α
  | .plane m => .plane m (.seed m (m.projection.unprojectGrid picture))
  | .geodesic m => .geodesic m (.seed (m.projection.unprojectGrid picture))
  | m => .plain m

/-- The slot without the block of its last call. The epipole of that call stays. -/
def forget : Slot α → Slot α
  | plain m => plain m
  | plane m cache => plane m cache.forget
  | geodesic m cache => geodesic m cache.forget

theorem build_eq_seeded (id : ModelId) (flavor : GeodesicFlavor) (projection : Projection α)
    (picture : Grid (Vec2 α)) :
    build id flavor projection (projection.unprojectGrid picture) =
      seeded picture (id.motionModel flavor projection none) := by
  cases id <;> rfl

@[simp] theorem model_forget (slot : Slot α) : slot.forget.model = slot.model := by cases slot <;> rfl

@[simp] theorem model_seeded (picture : Grid (Vec2 α)) (m : MotionModel α) : (seeded picture m).model = m := by
  cases m <;> rfl

@[simp] theorem forget_seeded (picture : Grid (Vec2 α)) (m : MotionModel α) :
    (seeded picture m).forget = seeded picture m := by
  cases m <;> rfl

theorem model_eq {slot : Slot α} {m : MotionModel α} {picture : Grid (Vec2 α)}
    (filled : slot.forget = seeded picture m) : slot.model = m := by
  rw [← model_forget, filled, model_seeded]

theorem forget_setEpipole (slot : Slot α) (epipole : Option (Vec3 α)) :
    (slot.setEpipole epipole).forget = slot.forget.setEpipole epipole := by
  cases slot <;> cases epipole <;> rfl

variable [LawfulSame α]

/-- Setting the epipole that a call brings, if its model is that of the camera pose, leaves nothing of the
epipole set before. -/
theorem forget_setEpipole_of_seeded {slot : Slot α} {id : ModelId} {picture : Grid (Vec2 α)}
    {flavor : GeodesicFlavor} {projection : Projection α} {before epipole : Option (Vec3 α)}
    (filled : slot.forget = seeded picture (id.motionModel flavor projection before))
    (given : epipole.isSome = decide (id = .geodesicCameraPose)) :
    (slot.setEpipole epipole).forget = seeded picture (id.motionModel flavor projection epipole) := by
  rw [forget_setEpipole, filled]
  cases epipole with
  | none => cases id <;> first | rfl | cases given
  | some epipole =>
    obtain rfl : id = .geodesicCameraPose := of_decide_eq_true given.symm
    simp only [ModelId.motionModel, seeded, setEpipole, Geodesic.setEpipole_eq]
    rfl

/-- A slot moves a block of its picture as its model does, and only the block in its cache may change. -/
theorem moveCached_of_inside {slot : Slot α} {m : MotionModel α} {picture samples : Grid (Vec2 α)} {w : Window}
    (filled : slot.forget = seeded picture m) (inside : picture.window? w = some samples) (motion center : Vec2 α) :
    ∃ next, slot.moveCached w samples motion center = .ok (m.move samples motion center, next) ∧
      next.forget = seeded picture m := by
  obtain rfl : slot.model = m := model_eq filled
  cases slot with
  | plain m => exact ⟨plain m, rfl, filled⟩
  | plane m cache =>
    have seed : cache.picture = m.toPlane (m.projection.unprojectGrid picture) :=
      congrArg PlaneCache.picture (plane.inj filled).2
    obtain ⟨next, moved, -⟩ := PlaneMotion.moveCached_of_inside seed inside motion
    refine ⟨plane m next, by rw [moveCached, moved]; rfl, ?_⟩
    rw [forget, PlaneCache.forget_eq (PlaneMotion.picture_moveCached moved)]
    exact filled
  | geodesic m cache =>
    have seed : cache.picture = m.projection.unprojectGrid picture :=
      congrArg GeodesicCache.picture (geodesic.inj filled).2
    obtain ⟨next, moved, -⟩ := Geodesic.moveCached_of_inside seed inside motion center
    refine ⟨geodesic m next, by rw [moveCached, moved]; rfl, ?_⟩
    rw [forget, GeodesicCache.forget_eq (Geodesic.picture_moveCached moved)]
    exact filled

end Slot

namespace SubblockPicture

/-- The picture of a luma size with its samples at one of the offsets. The offset is checked before the size. -/
def ofOffsetIndex (width height offsetIndex : Nat) : Except ConfigError (SubblockPicture α) := do
  let offset ← Config.offset offsetIndex
  build width height offset

/-- The picture without its last block. -/
def forget (p : SubblockPicture α) : SubblockPicture α := { p with lastBlock := .empty }

omit [Scalar α] in
theorem grid_eq {p q : SubblockPicture α} (alike : q.forget = p.forget) : q.grid = p.grid :=
  (congrArg grid alike :)

theorem settle_eq {p q : SubblockPicture α} (alike : q.forget = p.forget) : q.settle = p.settle :=
  (congrArg settle alike :)

omit [Scalar α] in
theorem lumaBlock_of_inside {p : SubblockPicture α} {w : Window} {samples : Grid (Vec2 α)}
    (inside : p.grid.window? w = some samples) :
    ∃ next, p.lumaBlock w = .ok (samples, next) ∧ next.forget = p.forget := by
  obtain ⟨lastBlock, fetched, -⟩ := p.lastBlock.fetch_of_some (fun _ _ => eq_of_beq) w inside
  exact ⟨{ p with lastBlock }, by rw [lumaBlock, fetched], rfl⟩

omit [Scalar α] in
theorem lumaBlock_of_outside {p : SubblockPicture α} {w : Window} (outside : p.grid.window? w = none) :
    p.lumaBlock w = .error (.fault .windowOutsideGrid) := by
  rw [lumaBlock, p.lastBlock.fetch_of_none (fun _ _ => eq_of_beq) outside]

/-- The motion samples of a block, in luma samples. -/
def samples (p : SubblockPicture α) (block : LocatedBlock α) : Except EngineError (Grid (Vec2 α)) :=
  if block.isLuma then
    match p.grid.window? block.window with
    | some samples => .ok samples
    | none => .error (.fault .windowOutsideGrid)
  else .ok (p.chromaBlock block)

/-- Moves a block that was located in the picture. -/
def moveBlock (p : SubblockPicture α) (model : MotionModel α) (moved : MovedBlock) (block : LocatedBlock α) :
    Except EngineError SubblockCorners := do
  let samples ← p.samples block
  let targets := model.move samples (moved.vector.toVec2 moved.precision) block.center
  return p.settle block moved.precision samples targets

theorem moveBlock_of_chroma {block : LocatedBlock α} (chroma : block.isLuma = false) (p : SubblockPicture α)
    (model : MotionModel α) (moved : MovedBlock) :
    p.moveBlock model moved block = .ok (p.settle block moved.precision (p.chromaBlock block)
      (model.move (p.chromaBlock block) (moved.vector.toVec2 moved.precision) block.center)) := by
  simp only [moveBlock, samples, chroma, Bool.false_eq_true, if_false]
  rfl

/-- A luma block is moved as it is without a memory if the samples of a window are moved so. -/
theorem follows_lumaBlock {σ : Type} {Good : σ → Prop} {p : SubblockPicture α} {model : MotionModel α}
    {moved : MovedBlock} {block : LocatedBlock α} (luma : block.isLuma = true)
    {serve : Grid (Vec2 α) × SubblockPicture α → Except EngineError (SubblockCorners × σ)}
    (each : ∀ samples next, p.grid.window? block.window = some samples → next.forget = p.forget →
      Follows Good (.ok (next.settle block moved.precision samples
        (model.move samples (moved.vector.toVec2 moved.precision) block.center))) (serve (samples, next))) :
    Follows Good (p.forget.moveBlock model moved block) (p.lumaBlock block.window >>= serve) := by
  simp only [moveBlock, samples, luma, if_true, forget]
  cases inside : p.grid.window? block.window with
  | none =>
    rw [lumaBlock_of_outside inside]
    exact .error
  | some samples =>
    obtain ⟨next, fetched, kept⟩ := lumaBlock_of_inside inside
    have follows := each samples next inside kept
    rw [settle_eq kept] at follows
    rw [fetched]
    exact follows

end SubblockPicture

/-- The epipole that a model is given for a picture pair. No model but that of the camera pose needs one. -/
def EpipoleList.forModel (list : EpipoleList) (id : ModelId) (pair : PicturePair) :
    Except EngineError (Option (Vec3 α)) :=
  if id = .geodesicCameraPose then
    match list.find pair with
    | .ok epipole => .ok (some epipole)
    | .error cause => .error (.epipole cause)
  else .ok none

theorem EpipoleList.isSome_of_forModel {list : EpipoleList} {id : ModelId} {pair : PicturePair}
    {epipole : Option (Vec3 α)} (given : list.forModel id pair = .ok epipole) :
    epipole.isSome = decide (id = .geodesicCameraPose) := by
  unfold forModel at given
  split at given
  next pose =>
    split at given
    · cases given
      exact (decide_eq_true pose).symm
    · cases given
  next other =>
    cases given
    exact (decide_eq_false other).symm

/-- The list that a request leaves. -/
def EpipoleList.edit (list : EpipoleList) : Request α → EpipoleList
  | .addEpipole epipole pair isAvailable => list.add epipole pair isAvailable
  | .makeAvailable current => list.makeAvailable current
  | .reproject .. | .convert _ => list

/-- The vector of one motion model in terms of another one. -/
def Conversion.express (c : Conversion α) (source target : MotionModel α) : MotionVector :=
  if c.vector.isZero then c.vector else
    let shifted := source.movePoint c.position (c.vector.toVec2 c.precision) c.candidateCenter
    (MotionVector.ofVec2? (target.vectorFor c.position shifted c.currentCenter) c.precision).getD .zero

/-- Everything that the answers of an engine depend on. -/
structure Plan (α : Type) [Scalar α] where
  config : Config
  projection : Projection α
  picture : SubblockPicture α
  epipoles : EpipoleList

namespace Plan

def motionModel (plan : Plan α) (id : ModelId) (epipole : Option (Vec3 α)) : MotionModel α :=
  id.motionModel plan.config.flavor plan.projection epipole

/-- Refuses a model that is not active. -/
def require (plan : Plan α) (id : ModelId) : Except EngineError Unit :=
  if plan.config.active.contains id then .ok () else .error (.inactiveModel id)

def reproject (plan : Plan α) (moved : MovedBlock) (id : ModelId) (pair : PicturePair) :
    Except EngineError SubblockCorners := do
  plan.require id
  let block ← plan.picture.locate moved.block moved.component moved.chroma
  let epipole ← plan.epipoles.forModel id pair
  plan.picture.moveBlock (plan.motionModel id epipole) moved block

def convert (plan : Plan α) (c : Conversion α) : Except EngineError MotionVector := do
  plan.require c.source
  plan.require c.target
  let sourceEpipole ← plan.epipoles.forModel c.source c.sourcePair
  let targetEpipole ← plan.epipoles.forModel c.target c.targetPair
  if c.vector.isZero || (c.source = c.target && Engine.sameEpipole sourceEpipole targetEpipole) then
    return c.vector
  let source := plan.motionModel c.source sourceEpipole
  let target := plan.motionModel c.target targetEpipole
  let shifted := source.movePoint c.position (c.vector.toVec2 c.precision) c.candidateCenter
  let motion := target.vectorFor c.position shifted c.currentCenter
  return (MotionVector.ofVec2? motion c.precision).getD .zero

theorem convert_of_ne (plan : Plan α) {c : Conversion α} (differ : c.source ≠ c.target) :
    plan.convert c = do
      plan.require c.source
      plan.require c.target
      let sourceEpipole ← plan.epipoles.forModel c.source c.sourcePair
      let targetEpipole ← plan.epipoles.forModel c.target c.targetPair
      return c.express (plan.motionModel c.source sourceEpipole) (plan.motionModel c.target targetEpipole) := by
  simp only [convert, differ, decide_false, Bool.false_and, Bool.or_false, Conversion.express]
  cases c.vector.isZero <;> rfl

/-- The answer to a request. -/
def reply (plan : Plan α) : Request α → Reply
  | .reproject moved id pair =>
    match plan.reproject moved id pair with
    | .ok corners => .corners corners
    | .error cause => .refused cause
  | .convert conversion =>
    match plan.convert conversion with
    | .ok mv => .vector mv
    | .error cause => .refused cause
  | .addEpipole .. | .makeAvailable _ => .done

/-- What a request changes. -/
def next (plan : Plan α) (request : Request α) : Plan α := { plan with epipoles := plan.epipoles.edit request }

end Plan

end SphereMotion
