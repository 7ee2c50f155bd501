import Mathlib
import SphereMotion.Proofs.BlockSamples
import SphereMotion.Proofs.History

namespace SphereMotion

open Scalar

namespace Memo

variable {κ β : Type} {compute : κ → Option β}

/-- The memo before a key is computed. What it holds for another key is dropped. -/
def release (same : κ → κ → Bool) (memo : Memo compute) (key : κ) : Memo compute :=
  match memo.entry with
  | some e => if same e.val.1 key then memo else .empty
  | none => .empty

theorem fetch_release (same : κ → κ → Bool) (memo : Memo compute) (key : κ) :
    (memo.release same key).fetch same key = memo.fetch same key := by
  unfold release
  split
  next e held =>
    split
    next => rfl
    next other =>
      simp only [fetch, held, if_neg other]
      rfl
  next none =>
    simp only [fetch, none]
    rfl

end Memo

variable {α : Type} [Scalar α]

def PlaneCache.release (cache : PlaneCache α) (window : Window) : PlaneCache α :=
  { cache with block := cache.block.release (· == ·) window }

omit [Scalar α] in
theorem PlaneCache.fetch_release (cache : PlaneCache α) (window : Window) :
    (cache.release window).fetch window = cache.fetch window := by
  rw [fetch, fetch, release, Memo.fetch_release]
  cases cache.block.fetch (· == ·) window <;> rfl

def GeodesicCache.release (cache : GeodesicCache α) (window : Window) (epipole : Vec3 α) : GeodesicCache α :=
  { cache with block := cache.block.release (fun k l => k.1 == l.1 && k.2.same l.2) (window, epipole) }

theorem GeodesicCache.fetch_release (cache : GeodesicCache α) (window : Window) (epipole : Vec3 α) :
    (cache.release window epipole).fetch window epipole = cache.fetch window epipole := by
  rw [fetch, fetch, release, Memo.fetch_release]
  cases cache.block.fetch (fun k l => k.1 == l.1 && k.2.same l.2) (window, epipole) <;> rfl

/-- The slot before a block is moved by it. A cache drops what it holds of another block, unless nothing moves. -/
def Slot.release (slot : Slot α) (window : Window) (motion : Vec2 α) : Slot α :=
  match slot with
  | plain m => plain m
  | plane m cache => plane m (if motion.isZero then cache else cache.release window)
  | geodesic m cache => geodesic m (if motion.isZero then cache else cache.release window m.frame.epipole)

theorem Slot.moveCached_release (slot : Slot α) (window : Window) (samples : Grid (Vec2 α))
    (motion center : Vec2 α) :
    (slot.release window motion).moveCached window samples motion center =
      slot.moveCached window samples motion center := by
  cases still : motion.isZero with
  | true => cases slot <;> simp only [release, still, if_true]
  | false =>
    cases slot with
    | plain m => rfl
    | plane m cache =>
      simp only [release, still, Bool.false_eq_true, if_false, moveCached, PlaneMotion.moveCached,
        PlaneCache.fetch_release]
    | geodesic m cache =>
      simp only [release, still, Bool.false_eq_true, if_false, moveCached, Geodesic.moveCached,
        GeodesicCache.fetch_release]

/-- The picture before the samples of a window are taken out of it. -/
def SubblockPicture.release (p : SubblockPicture α) (window : Window) : SubblockPicture α :=
  { p with lastBlock := p.lastBlock.release (· == ·) window }

omit [Scalar α] in
theorem SubblockPicture.lumaBlock_release (p : SubblockPicture α) (window : Window) :
    (p.release window).lumaBlock window = p.lumaBlock window := by
  rw [lumaBlock, lumaBlock, release, Memo.fetch_release]
  cases p.lastBlock.fetch (· == ·) window <;> rfl

/-- A luma block that was found in a picture has its samples there. -/
theorem SubblockPicture.OnLattice.exists_window_of_located {p : SubblockPicture α} {halves : Nat}
    (regular : p.OnLattice halves) {block : Block} {component : Component} {chroma : ChromaFormat}
    {found : LocatedBlock α} (located : p.locate block component chroma = .ok found) (luma : found.isLuma = true) :
    ∃ samples, p.grid.window? found.window = some samples := by
  obtain ⟨accepted, rfl⟩ := accepted_of_locate located
  obtain ⟨samples, isSamples, -⟩ := exists_samples_of_luma regular.grid luma accepted
  unfold SubblockPicture.samples at isSamples
  rw [if_pos luma] at isSamples
  split at isSamples
  next samples inside => exact ⟨samples, inside⟩
  next => cases isSamples

/-- The corners that belong to moved samples. Each sample is settled by the moved one at its index, which has to be
there. -/
def SubblockPicture.settleIndexed (p : SubblockPicture α) (block : LocatedBlock α) (precision : Nat)
    (samples targets : Grid (Vec2 α)) : Except EngineError SubblockCorners :=
  if samples.size ≤ targets.size then .ok (p.settle block precision samples targets)
  else .error (.fault .indexOutsideGrid)

theorem SubblockPicture.settleIndexed_of_shape {p : SubblockPicture α} {block : LocatedBlock α} {precision : Nat}
    {samples targets : Grid (Vec2 α)} (shape : targets.rows = samples.rows ∧ targets.cols = samples.cols) :
    p.settleIndexed block precision samples targets = .ok (p.settle block precision samples targets) := by
  have enough : samples.size ≤ targets.size := by rw [Grid.size, Grid.size, shape.1, shape.2]
  exact if_pos enough

/-- The single point of a grid that was moved. -/
theorem MotionModel.point_move_single (model : MotionModel α) (position motion center : Vec2 α) :
    (model.move (.single position) motion center).point 0 = .ok (model.movePoint position motion center) := by
  have found : (model.move (.single position) motion center).get? 0 =
      some (model.movePoint position motion center) := Array.getElem?_eq_getElem _
  rw [Grid.point, found]

namespace Engine

/-- A call on an engine. What it has written when it fails stays written. -/
abbrev Call (α : Type) [Scalar α] := ExceptT EngineError (StateM (Engine α))

namespace Call

variable {β γ : Type}

/-- The outcome of a call and the engine that it leaves. -/
def run (call : Call α β) (e : Engine α) : Except EngineError β × Engine α := StateT.run (ExceptT.run call) e

/-- Looks something up, which may be refused. -/
def read (look : Engine α → Except EngineError β) : Call α β := do
  match look (← get) with
  | .ok value => return value
  | .error cause => throw cause

def requireActive (model : ModelId) : Call α Unit :=
  read fun e => if e.isActive model then .ok () else .error (.inactiveModel model)

def setEpipole (model : ModelId) (epipole : Option (Vec3 α)) : Call α Unit := do
  let slot ← read (·.slot model)
  modify (·.setSlot model (slot.setEpipole epipole))

def lumaBlock (window : Window) : Call α (Grid (Vec2 α)) := do
  modify fun e => { e with picture := e.picture.release window }
  let (samples, picture) ← read (·.picture.lumaBlock window)
  modify ({ · with picture })
  return samples

/-- Moves samples of the picture by the slot of a model. -/
def moveSlot (model : ModelId) (window : Window) (samples : Grid (Vec2 α)) (motion center : Vec2 α) :
    Call α (Grid (Vec2 α)) := do
  let slot ← read (·.slot model)
  modify (·.setSlot model (slot.release window motion))
  let slot ← read (·.slot model)
  let (targets, slot) ← read fun _ => (slot.moveCached window samples motion center).mapError .fault
  modify (·.setSlot model slot)
  return targets

def settle (block : LocatedBlock α) (precision : Nat) (samples targets : Grid (Vec2 α)) : Call α SubblockCorners :=
  read (·.picture.settleIndexed block precision samples targets)

/-- Moves a block that was found in the picture. -/
def move (moved : MovedBlock) (model : ModelId) (block : LocatedBlock α) : Call α SubblockCorners := do
  let motion := moved.vector.toVec2 moved.precision
  if block.isLuma then
    let samples ← lumaBlock block.window
    let targets ← moveSlot model block.window samples motion block.center
    settle block moved.precision samples targets
  else
    let samples ← read fun e => .ok (e.picture.chromaBlock block)
    let slot ← read (·.slot model)
    settle block moved.precision samples (slot.model.move samples motion block.center)

def reproject (moved : MovedBlock) (model : ModelId) (pair : PicturePair) : Call α SubblockCorners := do
  requireActive model
  let block ← read (·.picture.locate moved.block moved.component moved.chroma)
  let epipole ← read (·.epipole model pair)
  setEpipole model epipole
  move moved model block

/-- Moves the position of a conversion under its source and explains where it went under its target. -/
def explain (c : Conversion α) (sourceEpipole targetEpipole : Option (Vec3 α)) : Call α MotionVector := do
  setEpipole c.source sourceEpipole
  let source ← read (·.slot c.source)
  let moved := source.model.move (.single c.position) (c.vector.toVec2 c.precision) c.candidateCenter
  let shifted ← read fun _ => (moved.point 0).mapError .fault
  setEpipole c.target targetEpipole
  let target ← read (·.slot c.target)
  let motion := target.model.vectorFor c.position shifted c.currentCenter
  return (MotionVector.ofVec2? motion c.precision).getD .zero

def convert (c : Conversion α) : Call α MotionVector := do
  requireActive c.source
  requireActive c.target
  let sourceEpipole ← read (·.epipole c.source c.sourcePair)
  let targetEpipole ← read (·.epipole c.target c.targetPair)
  if c.vector.isZero || (c.source = c.target && sameEpipole sourceEpipole targetEpipole) then
    return c.vector
  explain c sourceEpipole targetEpipole

/-- Serves a request in place. A refusal is the error of the call. -/
def serve : Request α → Call α Reply
  | .reproject moved model pair => do return .corners (← reproject moved model pair)
  | .convert conversion => do return .vector (← convert conversion)
  | .addEpipole epipole pair isAvailable => do
    modify fun e => { e with epipoles := e.epipoles.add epipole pair isAvailable }
    return .done
  | .makeAvailable current => do
    modify fun e => { e with epipoles := e.epipoles.makeAvailable current }
    return .done

theorem run_bind (call : Call α β) (next : β → Call α γ) (e : Engine α) :
    (call >>= next).run e =
      match call.run e with
      | (.ok value, after) => (next value).run after
      | (.error cause, after) => (.error cause, after) := by
  change StateT.run (ExceptT.run call >>= ExceptT.bindCont next) e = _
  rw [StateT.run_bind]
  simp only [run]
  generalize StateT.run (ExceptT.run call) e = ran
  obtain ⟨outcome, after⟩ := ran
  cases outcome <;> rfl

theorem run_bind_of_ok {call : Call α β} {next : β → Call α γ} {e after : Engine α} {value : β}
    (ran : call.run e = (.ok value, after)) : (call >>= next).run e = (next value).run after := by
  rw [run_bind, ran]

theorem run_read (look : Engine α → Except EngineError β) (e : Engine α) : (read look).run e = (look e, e) := by
  have got : (get : Call α (Engine α)).run e = (.ok e, e) := rfl
  rw [read, run_bind_of_ok got]
  cases look e <;> rfl

theorem run_modify (f : Engine α → Engine α) (e : Engine α) : (modify f : Call α Unit).run e = (.ok (), f e) := rfl

theorem run_pure (value : β) (e : Engine α) : (pure value : Call α β).run e = (.ok value, e) := rfl

end Call

variable {e : Engine α} {model : ModelId} {slot : Slot α}

theorem slot_setSlot (present : e.slot model = .ok slot) (next : Slot α) :
    (e.setSlot model next).slot model = .ok next := by
  have found : e.slot? model = some slot := by
    unfold Engine.slot at present
    split at present
    next found => rw [found, Except.ok.inj present]
    next => cases present
  have replaced : (e.setSlot model next).slot? model = some next := by rw [slot?_setSlot, if_pos rfl, found]; rfl
  rw [Engine.slot, replaced]

theorem setSlot_setSlot (e : Engine α) (model : ModelId) (first second : Slot α) :
    (e.setSlot model first).setSlot model second = e.setSlot model second := by
  simp only [setSlot, List.map_map]
  congr 2
  funext ⟨id, old⟩
  by_cases here : id = model <;> simp [here]

theorem setSlot_setSlot_picture (e : Engine α) (picture : SubblockPicture α) (model : ModelId)
    (first second : Slot α) :
    { e.setSlot model first with picture }.setSlot model second = { e with picture }.setSlot model second :=
  setSlot_setSlot { e with picture } model first second

namespace Call

theorem run_requireActive (e : Engine α) (model : ModelId) :
    (requireActive model).run e = (if e.isActive model then .ok () else .error (.inactiveModel model), e) :=
  run_read _ e

theorem run_setEpipole (present : e.slot model = .ok slot) (epipole : Option (Vec3 α)) :
    (setEpipole model epipole).run e = (.ok (), e.setSlot model (slot.setEpipole epipole)) := by
  have found : (read (·.slot model)).run e = (.ok slot, e) := by rw [run_read, present]
  rw [setEpipole, run_bind_of_ok found, run_modify]

theorem run_lumaBlock {window : Window} {samples : Grid (Vec2 α)} {picture : SubblockPicture α}
    (fetched : e.picture.lumaBlock window = .ok (samples, picture)) :
    (lumaBlock window).run e = (.ok samples, { e with picture }) := by
  rw [lumaBlock, run_bind_of_ok (run_modify _ e)]
  have found : (read (·.picture.lumaBlock window)).run { e with picture := e.picture.release window } =
      (.ok (samples, picture), { e with picture := e.picture.release window }) := by
    rw [run_read, SubblockPicture.lumaBlock_release, fetched]
  rw [run_bind_of_ok found, run_bind_of_ok (run_modify _ _), run_pure]

theorem run_moveSlot {window : Window} {samples targets : Grid (Vec2 α)} {motion center : Vec2 α}
    {next : Slot α} (present : e.slot model = .ok slot)
    (moved : slot.moveCached window samples motion center = .ok (targets, next)) :
    (moveSlot model window samples motion center).run e = (.ok targets, e.setSlot model next) := by
  have found : (read (·.slot model)).run e = (.ok slot, e) := by rw [run_read, present]
  rw [moveSlot, run_bind_of_ok found, run_bind_of_ok (run_modify _ e)]
  generalize released : e.setSlot model (slot.release window motion) = after
  have found' : (read (·.slot model)).run after = (.ok (slot.release window motion), after) := by
    rw [run_read, ← released, slot_setSlot present]
  have cut : (read fun _ =>
      ((slot.release window motion).moveCached window samples motion center).mapError .fault).run
      after = (.ok (targets, next), after) := by
    rw [run_read, Slot.moveCached_release, moved]
    rfl
  rw [run_bind_of_ok found', run_bind_of_ok cut, run_bind_of_ok (run_modify _ _), run_pure, ← released,
    setSlot_setSlot]

theorem run_settle {block : LocatedBlock α} {precision : Nat} {samples targets : Grid (Vec2 α)}
    (shape : targets.rows = samples.rows ∧ targets.cols = samples.cols) :
    (settle block precision samples targets).run e =
      (.ok (e.picture.settle block precision samples targets), e) := by
  rw [settle, run_read, SubblockPicture.settleIndexed_of_shape shape]

/-- A luma block is moved in its window, a chroma block by its samples alone. -/
theorem run_move_of_luma {moved : MovedBlock} {block : LocatedBlock α} {samples targets : Grid (Vec2 α)}
    {picture : SubblockPicture α} {next : Slot α} (present : e.slot model = .ok slot) (luma : block.isLuma = true)
    (fetched : e.picture.lumaBlock block.window = .ok (samples, picture))
    (cut : slot.moveCached block.window samples (moved.vector.toVec2 moved.precision) block.center =
      .ok (targets, next))
    (shape : targets.rows = samples.rows ∧ targets.cols = samples.cols) :
    (move moved model block).run e =
      (.ok (picture.settle block moved.precision samples targets), { e with picture }.setSlot model next) := by
  have found : Engine.slot { e with picture } model = .ok slot := present
  rw [move, if_pos luma, run_bind_of_ok (run_lumaBlock fetched), run_bind_of_ok (run_moveSlot found cut),
    run_settle shape]
  rfl

theorem run_move_of_chroma {moved : MovedBlock} {block : LocatedBlock α} (present : e.slot model = .ok slot)
    (chroma : block.isLuma = false) :
    (move moved model block).run e =
      (.ok (e.picture.settle block moved.precision (e.picture.chromaBlock block)
        (slot.model.move (e.picture.chromaBlock block) (moved.vector.toVec2 moved.precision)
          block.center)), e) := by
  have notLuma : ¬block.isLuma = true := by rw [chroma]; exact Bool.false_ne_true
  have lattice : (read fun e => .ok (e.picture.chromaBlock block)).run e = (.ok (e.picture.chromaBlock block), e) :=
    run_read _ e
  have found : (read (·.slot model)).run e = (.ok slot, e) := by rw [run_read, present]
  rw [move, if_neg notLuma, run_bind_of_ok lattice, run_bind_of_ok found,
    run_settle (MotionModel.shape_move ..)]

theorem run_explain {c : Conversion α} {sourceEpipole targetEpipole : Option (Vec3 α)} {source target : Slot α}
    (sourcePresent : e.slot c.source = .ok source)
    (targetPresent : (e.setSlot c.source (source.setEpipole sourceEpipole)).slot c.target = .ok target) :
    let source := source.setEpipole sourceEpipole
    let target := target.setEpipole targetEpipole
    let shifted := source.model.movePoint c.position (c.vector.toVec2 c.precision) c.candidateCenter
    (explain c sourceEpipole targetEpipole).run e =
      (.ok ((MotionVector.ofVec2? (target.model.vectorFor c.position shifted c.currentCenter)
          c.precision).getD .zero),
        (e.setSlot c.source source).setSlot c.target target) := by
  intro source target shifted
  rw [explain, run_bind_of_ok (run_setEpipole sourcePresent _)]
  have found : (read (·.slot c.source)).run (e.setSlot c.source source) =
      (.ok source, e.setSlot c.source source) := by
    rw [run_read, slot_setSlot sourcePresent]
  rw [run_bind_of_ok found]
  have moved : (read fun _ => ((source.model.move (.single c.position) (c.vector.toVec2 c.precision)
      c.candidateCenter).point 0).mapError .fault).run (e.setSlot c.source source) =
        (.ok shifted, e.setSlot c.source source) := by
    rw [run_read, MotionModel.point_move_single]
    rfl
  rw [run_bind_of_ok moved, run_bind_of_ok (run_setEpipole targetPresent _)]
  have found' : (read (·.slot c.target)).run ((e.setSlot c.source source).setSlot c.target target) =
      (.ok target, (e.setSlot c.source source).setSlot c.target target) := by
    rw [run_read, slot_setSlot targetPresent]
  rw [run_bind_of_ok found', run_pure]

end Call

/-- What a call in place comes to by the answer of an engine that is given as a value: the same, or
nothing at all. -/
def outcome {β : Type} (e : Engine α) : Except EngineError (β × Engine α) → Except EngineError β × Engine α
  | .ok (value, next) => (.ok value, next)
  | .error cause => (.error cause, e)

/-- What is looked up in place and on a value is refused alike, and else both go on alike. -/
theorem outcome_read {β γ : Type} {look : Engine α → Except EngineError β} {next : β → Call α γ}
    {next' : β → Except EngineError (γ × Engine α)}
    (goesOn : ∀ value, look e = .ok value → (next value).run e = e.outcome (next' value)) :
    (Call.read look >>= next).run e = e.outcome (look e >>= next') := by
  rw [Call.run_bind, Call.run_read]
  cases found : look e with
  | error cause => rfl
  | ok value => exact goesOn value found

namespace Sound

variable [LawfulSame α] {halves : Nat}

omit [LawfulSame α] in
theorem run_requireActive (sound : e.Sound) (model : ModelId) :
    (Call.requireActive model).run e =
      (if e.config.active.contains model then .ok () else .error (.inactiveModel model), e) := by
  rw [Call.run_requireActive, isActive, sound.active]

omit [LawfulSame α] in
/-- A model is required in place where the call on a value looks up its slot. -/
theorem outcome_require (sound : e.Sound) {γ : Type} {next : Unit → Call α γ}
    {next' : Slot α → Except EngineError (γ × Engine α)}
    (goesOn : ∀ slot epipole, e.config.active.contains model = true → e.slot model = .ok slot →
      slot.forget = .seeded e.picture.grid (model.motionModel e.config.flavor e.projection epipole) →
        (next ()).run e = e.outcome (next' slot)) :
    (Call.requireActive model >>= next).run e = e.outcome (e.slot model >>= next') := by
  rw [Call.run_bind, sound.run_requireActive]
  cases active : e.config.active.contains model with
  | false =>
    rw [sound.slot_of_inactive active]
    rfl
  | true =>
    obtain ⟨slot, epipole, present, seeded⟩ := sound.slot_of_active active
    rw [present]
    exact goesOn slot epipole active present seeded

/-- A call in place does what the call on a value does. Once it writes, it does not fail any more. -/
theorem run_reproject (sound : e.Sound) (regular : e.picture.OnLattice halves) (moved : MovedBlock)
    (model : ModelId) (pair : PicturePair) :
    (Call.reproject moved model pair).run e = e.outcome (e.reproject moved model pair) := by
  refine sound.outcome_require fun slot _ _ present seeded => outcome_read fun block located =>
    outcome_read fun epipole given => ?_
  rw [Call.run_bind_of_ok (Call.run_setEpipole present _)]
  have given' : e.epipoles.forModel model pair = .ok epipole := given
  have filled : (slot.setEpipole epipole).forget = .seeded e.picture.grid (e.plan.motionModel model epipole) :=
    Slot.forget_setEpipole_of_seeded seeded (EpipoleList.isSome_of_forModel given')
  have found := slot_setSlot present (slot.setEpipole epipole)
  cases luma : block.isLuma with
  | true =>
    obtain ⟨samples, inside⟩ := regular.exists_window_of_located located luma
    obtain ⟨picture, fetched, -⟩ := SubblockPicture.lumaBlock_of_inside inside
    obtain ⟨next, cut, -⟩ :=
      Slot.moveCached_of_inside filled inside (moved.vector.toVec2 moved.precision) block.center
    rw [Call.run_move_of_luma found luma fetched cut (MotionModel.shape_move ..), setSlot_setSlot_picture]
    simp only [bind, Except.bind, fetched, cut, Except.mapError, if_true]
    rfl
  | false =>
    rw [Call.run_move_of_chroma found luma]
    simp only [bind, Except.bind, Bool.false_eq_true, if_false]
    rfl

theorem run_convert (sound : e.Sound) (c : Conversion α) : (Call.convert c).run e = e.outcome (e.convert c) := by
  refine sound.outcome_require fun source _ _ sourcePresent sourceSeeded =>
    sound.outcome_require fun _ _ targetActive _ _ =>
      outcome_read fun sourceEpipole sourceGiven => outcome_read fun targetEpipole _ => ?_
  split
  next => rfl
  next =>
    have sourceFilled := Slot.forget_setEpipole_of_seeded sourceSeeded
      (EpipoleList.isSome_of_forModel (show e.epipoles.forModel c.source c.sourcePair = _ from sourceGiven))
    have moved : (e.setSlot c.source (source.setEpipole sourceEpipole)).Sound := sound.setSlot sourceFilled
    obtain ⟨target, _, present, -⟩ := moved.slot_of_active targetActive
    rw [Call.run_explain sourcePresent present]
    dsimp only
    rw [present]
    rfl

/-- A request that is served in place leaves the engine that the request on a value gives, its error included. -/
theorem run_serve (sound : e.Sound) (regular : e.picture.OnLattice halves) (request : Request α) :
    (Call.serve request).run e =
      match e.serve request with
      | (.refused cause, next) => (.error cause, next)
      | (reply, next) => (.ok reply, next) := by
  cases request with
  | reproject moved model pair =>
    have ran := sound.run_reproject regular moved model pair
    rw [Call.serve, Engine.serve, Call.run_bind, ran]
    cases e.reproject moved model pair <;> rfl
  | convert c =>
    have ran := sound.run_convert c
    rw [Call.serve, Engine.serve, Call.run_bind, ran]
    cases e.convert c <;> rfl
  | addEpipole epipole pair isAvailable => rfl
  | makeAvailable current => rfl

end Sound

/-- The engine after requests that are served in place. -/
def runInPlace (e : Engine α) (requests : List (Request α)) : Engine α :=
  requests.foldl (fun e request => ((Call.serve request).run e).2) e

theorem Sound.runInPlace_eq [LawfulSame α] {halves : Nat} (sound : e.Sound) (regular : e.picture.OnLattice halves)
    (requests : List (Request α)) : e.runInPlace requests = e.serveAll requests := by
  induction requests generalizing e with
  | nil => rfl
  | cons request rest ih =>
    obtain ⟨-, nextSound, kept⟩ := sound.serve request
    have first : ((Call.serve request).run e).2 = (e.serve request).2 := by
      rw [sound.run_serve regular]
      split <;> rename_i served <;> rw [served]
    have picture : (e.serve request).2.picture.forget = e.picture.forget := congrArg Plan.picture kept
    rw [runInPlace, List.foldl_cons, first, serveAll_cons]
    exact ih nextSound (regular.of_forget picture)

end Engine

end SphereMotion
