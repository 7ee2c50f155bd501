import Mathlib
import SphereMotion.Setup
import SphereMotion.Proofs.FixedPoints
import SphereMotion.Proofs.GuardedMotion
import SphereMotion.Proofs.KnownArccos
import SphereMotion.Proofs.Refusals
import SphereMotion.Proofs.Viewports

namespace SphereMotion

open Scalar

variable {α : Type} [Scalar α]

/-- A picture is made of whole sub-blocks only. -/
theorem SubblockPicture.ofOffsetIndex_eq (width height : Nat) {offsetIndex : Nat} {offset : α}
    (accepted : Config.offset offsetIndex = .ok offset) :
    (0 < width ∧ 0 < height ∧ 4 ∣ width ∧ 4 ∣ height →
      ∃ picture : SubblockPicture α, ofOffsetIndex width height offsetIndex = .ok picture) ∧
    (¬(0 < width ∧ 0 < height ∧ 4 ∣ width ∧ 4 ∣ height) →
      (ofOffsetIndex width height offsetIndex : Except ConfigError (SubblockPicture α)) =
        .error (.invalidResolution width height)) := by
  have made : (ofOffsetIndex width height offsetIndex : Except ConfigError (SubblockPicture α)) =
      build width height offset := by rw [ofOffsetIndex, accepted]; rfl
  rw [made, build]
  refine ⟨fun whole => ?_, fun ragged => ?_⟩
  · rw [if_neg (by omega)]
    exact ⟨_, rfl⟩
  · rw [if_pos (by omega)]

/-- What is refused of a block is no fault. -/
theorem SubblockPicture.locate_ne_fault (p : SubblockPicture α) (block : Block) (component : Component)
    (chroma : ChromaFormat) (cause : Fault) : p.locate block component chroma ≠ .error (.fault cause) := by
  rw [locate_eq]
  split
  · rintro ⟨⟩
  split
  · rintro ⟨⟩
  split <;> rintro ⟨⟩

omit [Scalar α] in
/-- No refusal is a fault. -/
theorem Request.refusal_ne_fault (config : Config) (width height : Nat) (list : EpipoleList) (request : Request α)
    (cause : Fault) : request.refusal config width height list ≠ some (.fault cause) := by
  have lost (model : ModelId) (pair : PicturePair) : list.refusal model pair ≠ some (.fault cause) := by
    unfold EpipoleList.refusal
    split <;> rintro ⟨⟩
  cases request with
  | addEpipole | makeAvailable => rintro ⟨⟩
  | reproject moved model pair =>
    simp only [refusal]
    split
    · rintro ⟨⟩
    split
    · rintro ⟨⟩
    split
    · rintro ⟨⟩
    split
    · rintro ⟨⟩
    exact lost model pair
  | convert c =>
    simp only [refusal]
    split
    · rintro ⟨⟩
    split
    · rintro ⟨⟩
    have lostSource := lost c.source c.sourcePair
    cases source : list.refusal c.source c.sourcePair with
    | none => exact lost c.target c.targetPair
    | some other =>
      rw [source] at lostSource
      exact lostSource

/-- The precisions that a block is read and settled with: that of its vector, and those of its corners in
samples of its component. -/
def MovedBlock.precisions (moved : MovedBlock) : List Nat :=
  [moved.precision, moved.precision + (moved.component.shifts moved.chroma).1,
    moved.precision + (moved.component.shifts moved.chroma).2]

def Request.precisions : Request α → List Nat
  | reproject moved _ _ => moved.precisions
  | convert c => [c.precision]
  | addEpipole .. | makeAvailable _ => []

/-- Corners at the precisions of their block. -/
structure SubblockCorners.SettledFor (corners : SubblockCorners) (moved : MovedBlock) : Prop where
  precisionX : corners.precisionX ∈ moved.precisions
  precisionY : corners.precisionY ∈ moved.precisions

theorem SubblockPicture.settledFor_of_moveBlock {p : SubblockPicture α} {model : MotionModel α} {moved : MovedBlock}
    {block : LocatedBlock α} {corners : SubblockCorners}
    (located : p.locate moved.block moved.component moved.chroma = .ok block)
    (answered : p.moveBlock model moved block = .ok corners) : corners.SettledFor moved := by
  obtain ⟨-, rfl⟩ := accepted_of_locate located
  rw [moveBlock_eq] at answered
  generalize p.samples (moved.block.located moved.component moved.chroma) = found at answered
  cases found with
  | error cause => cases answered
  | ok samples =>
    cases answered
    constructor <;> simp [MovedBlock.precisions, Block.located]

theorem Plan.settledFor_of_reproject {plan : Plan α} {moved : MovedBlock} {id : ModelId} {pair : PicturePair}
    {corners : SubblockCorners} (answered : plan.reproject moved id pair = .ok corners) :
    corners.SettledFor moved := by
  unfold reproject at answered
  cases allowed : plan.require id with
  | error cause => rw [allowed] at answered; cases answered
  | ok _ =>
    cases located : plan.picture.locate moved.block moved.component moved.chroma with
    | error cause => rw [allowed, located] at answered; cases answered
    | ok block =>
      cases given : (plan.epipoles.forModel id pair : Except EngineError (Option (Vec3 α))) with
      | error cause => rw [allowed, located, given] at answered; cases answered
      | ok epipole =>
        rw [allowed, located, given] at answered
        exact SubblockPicture.settledFor_of_moveBlock located answered

theorem ViewportPlan.settledFor_of_reproject {plan : ViewportPlan α} {moved : MovedBlock} {viewport : Viewport}
    {corners : SubblockCorners} (answered : plan.reproject moved viewport = .ok corners) :
    corners.SettledFor moved := by
  unfold reproject at answered
  cases located : plan.picture.locate moved.block moved.component moved.chroma with
  | error cause => rw [located] at answered; cases answered
  | ok block =>
    rw [located] at answered
    exact SubblockPicture.settledFor_of_moveBlock located answered

/-- An engine that never faults, whatever it has served in place: nothing that its models read of the projection is
refused, and no call runs into a fault. The corners of a block are settled at its own precisions. -/
structure Engine.NeverFaults (start : Engine α) : Prop where
  reads (history : List (Request α)) : (start.runInPlace history).projection.Total
  told (history : List (Request α)) {model : ModelId} {slot : Slot α}
    (present : (start.runInPlace history).slot model = .ok slot) (epipole : Option (Vec3 α)) :
    (slot.setEpipole epipole).Told
  serves (history : List (Request α)) (request : Request α) (cause : Fault) :
    ((Call.serve request).run (start.runInPlace history)).1 ≠ .error (.fault cause)
  settles (history : List (Request α)) {moved : MovedBlock} {model : ModelId} {pair : PicturePair}
    {corners : SubblockCorners}
    (answered : ((Call.serve (.reproject moved model pair)).run (start.runInPlace history)).1 =
      .ok (.corners corners)) : corners.SettledFor moved

/-- The models of a sound engine read the projection of the engine. -/
theorem Engine.Sound.reads_model {e : Engine α} (sound : e.Sound) {model : ModelId} {slot : Slot α}
    (present : e.slot model = .ok slot) : slot.model.Reads e.projection := by
  cases active : e.config.active.contains model with
  | false =>
    rw [sound.slot_of_inactive active] at present
    cases present
  | true =>
    obtain ⟨found, epipole, isFound, seeded⟩ := sound.slot_of_active active
    obtain rfl : found = slot := Except.ok.inj (isFound.symm.trans present)
    rw [Slot.model_eq seeded]
    exact MotionModel.reads_motionModel ..

namespace Engine

/-- A request that is answered in place is answered so on a value. -/
theorem exists_served_of_run [LawfulSame α] [LawfulHalves α] {projection : Projection α} {width height : Nat}
    {config : Config} {epipoles : EpipoleList} {start : Engine α}
    (built : build projection width height config epipoles = .ok start) (history : List (Request α))
    {request : Request α} {reply : Reply}
    (answered : ((Call.serve request).run (start.runInPlace history)).1 = .ok reply) :
    ∃ next, (start.runInPlace history).serve request = (reply, next) := by
  have ran := run_serve_runInPlace built history request
  cases reason : request.refusal config width height (start.runInPlace history).epipoles with
  | some refusal =>
    rw [reason] at ran
    rw [ran] at answered
    cases answered
  | none =>
    rw [reason] at ran
    obtain ⟨_, next, run, served⟩ := ran
    rw [run] at answered
    cases answered
    exact ⟨next, served⟩

theorem reproject_of_serve {e next : Engine α} {moved : MovedBlock} {model : ModelId} {pair : PicturePair}
    {corners : SubblockCorners} (served : e.serve (.reproject moved model pair) = (.corners corners, next)) :
    e.reproject moved model pair = .ok (corners, next) := by
  rw [serve] at served
  cases answer : e.reproject moved model pair with
  | error cause => rw [answer] at served; cases served
  | ok result =>
    rw [answer] at served
    cases served
    rfl

end Engine

theorem Engine.neverFaults_of_built [LawfulSame α] [LawfulHalves α] {projection : Projection α} {width height : Nat}
    {config : Config} {epipoles : EpipoleList} {start : Engine α}
    (built : build projection width height config epipoles = .ok start) (total : projection.Total) :
    start.NeverFaults := by
  have reads (history : List (Request α)) :
      (start.runInPlace history).Sound ∧ (start.runInPlace history).projection.Total := by
    obtain ⟨_, -, sound, plan⟩ := run_of_built built history
    have kept : (start.serveAll history).projection = projection := congrArg Plan.projection plan
    rw [runInPlace_of_built built history, kept]
    exact ⟨sound, total⟩
  refine ⟨fun history => (reads history).2, fun history model slot present epipole => ?_,
    fun history request cause => ?_, fun history moved model pair corners answered => ?_⟩
  · obtain ⟨sound, total⟩ := reads history
    exact Slot.told_of_reads (Slot.reads_setEpipole (sound.reads_model present) epipole) total
  · have ran := run_serve_runInPlace built history request
    cases reason : request.refusal config width height (start.runInPlace history).epipoles with
    | some refusal =>
      rw [reason] at ran
      rw [ran]
      intro same
      cases same
      exact request.refusal_ne_fault _ _ _ _ cause reason
    | none =>
      rw [reason] at ran
      obtain ⟨reply, next, answered, -⟩ := ran
      rw [answered]
      rintro ⟨⟩
  · obtain ⟨next, served⟩ := exists_served_of_run built history answered
    have moves := ((reads history).1.reproject moved model pair).map_fst
    rw [reproject_of_serve served] at moves
    exact Plan.settledFor_of_reproject moves.symm

namespace ViewportEngine

/-- As `reproject`, with each sample settled by the moved one at its index. -/
def reprojectIndexed (e : ViewportEngine α) (moved : MovedBlock) (viewport : Viewport) :
    Except EngineError (SubblockCorners × ViewportEngine α) := do
  let block ← e.picture.locate moved.block moved.component moved.chroma
  let motion := moved.vector.toVec2 moved.precision
  if block.isLuma then
    let (samples, picture) ← e.picture.lumaBlock block.window
    let e := { e with picture }
    match viewport with
    | .classic =>
      let targets := PixelTranslation.move samples motion
      return (← picture.settleIndexed block moved.precision samples targets, e)
    | .plane plane =>
      let model : PlaneMotion α := ⟨e.projection, plane⟩
      let (targets, cache) ←
        (model.moveCached (e.caches.get plane) block.window samples motion).mapError .fault
      return (← picture.settleIndexed block moved.precision samples targets,
        { e with caches := e.caches.set plane cache })
  else
    let samples := e.picture.chromaBlock block
    return (← e.picture.settleIndexed block moved.precision samples (e.move viewport samples motion), e)

theorem move_eq (e : ViewportEngine α) (viewport : Viewport) (g : Grid (Vec2 α)) (motion : Vec2 α) :
    e.move viewport g motion = (viewport.motionModel e.projection).move g motion .origin := by
  cases viewport <;> rfl

/-- A viewport engine that never faults, whatever it was asked for: nothing that is read of its projection is
refused, no block runs into a fault, and the point that a conversion moves is found again. The corners of a
block are settled at its own precisions. -/
structure NeverFaults (start : ViewportEngine α) : Prop where
  reads (calls : List (MovedBlock × Viewport)) : (calls.foldl .after start).projection.Total
  told (calls : List (MovedBlock × Viewport)) (plane : MotionPlane) :
    let e := calls.foldl .after start
    (Slot.plane ⟨e.projection, plane⟩ (e.caches.get plane)).Told
  reprojects (calls : List (MovedBlock × Viewport)) (moved : MovedBlock) (viewport : Viewport) :
    let e := calls.foldl .after start
    e.reprojectIndexed moved viewport = e.reproject moved viewport ∧
      ∀ cause, e.reproject moved viewport ≠ .error (.fault cause)
  converts (calls : List (MovedBlock × Viewport)) (viewport : Viewport) (position motion : Vec2 α) :
    let e := calls.foldl .after start
    (e.move viewport (.single position) motion).point 0 = .ok (e.movePoint viewport position motion)
  settles (calls : List (MovedBlock × Viewport)) {moved : MovedBlock} {viewport : Viewport}
    {corners : SubblockCorners} {next : ViewportEngine α}
    (answered : (calls.foldl .after start).reproject moved viewport = .ok (corners, next)) :
    corners.SettledFor moved

namespace Sound

variable {e : ViewportEngine α} {halves : Nat}

/-- Moved grids have an entry for each sample, whether they come from a cache or not. -/
theorem reprojectIndexed_eq (sound : e.Sound) (regular : e.picture.OnLattice halves) (moved : MovedBlock)
    (viewport : Viewport) : e.reprojectIndexed moved viewport = e.reproject moved viewport := by
  rw [reprojectIndexed, ViewportEngine.reproject]
  cases located : e.picture.locate moved.block moved.component moved.chroma with
  | error cause => rfl
  | ok block =>
    simp only [bind, Except.bind]
    cases luma : block.isLuma with
    | false =>
      simp only [Bool.false_eq_true, if_false, move_eq]
      rw [SubblockPicture.settleIndexed_of_shape (MotionModel.shape_move ..)]
    | true =>
      simp only [if_true]
      obtain ⟨samples, inside⟩ := regular.exists_window_of_located located luma
      obtain ⟨picture, fetched, -⟩ := SubblockPicture.lumaBlock_of_inside inside
      rw [fetched]
      cases viewport with
      | classic =>
        have settled : picture.settleIndexed block moved.precision samples
            (PixelTranslation.move samples (moved.vector.toVec2 moved.precision)) = .ok _ :=
          SubblockPicture.settleIndexed_of_shape (MotionModel.shape_move .translational samples _ .origin)
        simp only [settled]
      | plane p =>
        obtain ⟨next, cut, -⟩ :=
          PlaneMotion.moveCached_of_inside (sound.filled p) inside (moved.vector.toVec2 moved.precision)
        have settled : picture.settleIndexed block moved.precision samples
            (PlaneMotion.move ⟨e.projection, p⟩ samples (moved.vector.toVec2 moved.precision)) = .ok _ :=
          SubblockPicture.settleIndexed_of_shape
            (MotionModel.shape_move (.plane ⟨e.projection, p⟩) samples _ .origin)
        simp only [cut, Except.mapError, settled]

theorem reproject_ne_fault (sound : e.Sound) (regular : e.picture.OnLattice halves) (moved : MovedBlock)
    (viewport : Viewport) (cause : Fault) : e.reproject moved viewport ≠ .error (.fault cause) := by
  have answer := (sound.reproject moved viewport).map_fst
  intro fault
  rw [fault, Except.map, plan, ViewportPlan.reproject] at answer
  cases located : e.picture.forget.locate moved.block moved.component moved.chroma with
  | error refusal =>
    rw [located] at answer
    cases answer
    exact e.picture.forget.locate_ne_fault _ _ _ cause located
  | ok block =>
    obtain ⟨corners, isCorners⟩ := regular.forget.exists_moveBlock located (viewport.motionModel e.projection)
    rw [located] at answer
    simp only [bind, Except.bind, isCorners] at answer
    cases answer

end Sound

theorem neverFaults_of_built [LawfulHalves α] {projection : Projection α} {width height offsetIndex : Nat}
    {start : ViewportEngine α} (built : build projection width height offsetIndex = .ok start)
    (total : projection.Total) : start.NeverFaults := by
  have reads (calls : List (MovedBlock × Viewport)) : (calls.foldl .after start).projection.Total := by
    obtain ⟨_, -, -, plan⟩ := run_of_built built calls
    have kept : (calls.foldl .after start).projection = projection := congrArg ViewportPlan.projection plan
    rwa [kept]
  refine ⟨reads, fun calls plane => ?_, fun calls moved viewport => ?_, fun calls viewport position motion => ?_,
    fun calls moved viewport corners next answered => ?_⟩
  · intro e
    have read : (MotionModel.plane ⟨e.projection, plane⟩).Reads e.projection := Eq.refl e.projection
    exact Slot.told_of_reads read (reads calls)
  · obtain ⟨picture, made, sound, plan⟩ := run_of_built built calls
    obtain ⟨-, -, halves, regular⟩ := SubblockPicture.onLattice_of_made made
    have kept : (calls.foldl .after start).picture.forget = picture.forget := congrArg ViewportPlan.picture plan
    have nowRegular := regular.of_forget kept
    exact ⟨sound.reprojectIndexed_eq nowRegular moved viewport, sound.reproject_ne_fault nowRegular moved viewport⟩
  · intro e
    rw [move_eq, MotionModel.point_move_single, movePoint_eq_shift]
    rfl
  · obtain ⟨_, -, sound, -⟩ := run_of_built built calls
    have moves := (sound.reproject moved viewport).map_fst
    rw [answered] at moves
    exact ViewportPlan.settledFor_of_reproject moves.symm

end ViewportEngine

/-- Parameters of a projection that a setup may have. -/
def ProjectionParams.Accepted : ProjectionParams α → Prop
  | equisolid focalLength _ _ => 0 < focalLength
  | calibrated coefficients _ _ => ∃ constant linear higher,
      coefficients = constant :: linear :: higher ∧ 0 < linear
  | equirectangular width height _ => 0 < width ∧ 0 < height

theorem ProjectionParams.exists_build [LawfulLens α] {params : ProjectionParams α} (accepted : params.Accepted)
    {samples : Nat} (enough : 2 ≤ samples) : ∃ projection, params.build samples = .ok projection := by
  cases params with
  | equisolid | equirectangular => exact ⟨_, rfl⟩
  | calibrated coefficients centerX centerY =>
    obtain ⟨constant, linear, higher, rfl, positive⟩ := accepted
    obtain ⟨lens, made⟩ := CalibratedLens.exists_build constant higher positive enough
    exact ⟨_, by rw [build, made]; rfl⟩

namespace Setup

/-- What a setup is checked for. -/
theorem accepted_of_check {setup : Setup α} (checked : setup.check = .ok ()) :
    (∃ offset : α, Config.offset setup.config.offsetIndex = .ok offset) ∧ setup.projection.Accepted := by
  unfold check at checked
  cases accepted : (Config.offset setup.config.offsetIndex : Except ConfigError α) with
  | error cause => rw [accepted] at checked; cases checked
  | ok offset =>
    rw [accepted] at checked
    refine ⟨⟨offset, rfl⟩, ?_⟩
    cases params : setup.projection with
    | equisolid f x y =>
      rw [params] at checked
      by_contra refused
      cases (if_neg refused).symm.trans checked
    | equirectangular width height offset =>
      rw [params] at checked
      by_contra refused
      cases (if_neg refused).symm.trans checked
    | calibrated coefficients x y =>
      rw [params] at checked
      match coefficients, checked with
      | constant :: linear :: higher, checked =>
        refine ⟨constant, linear, higher, rfl, ?_⟩
        by_contra refused
        cases (if_neg refused).symm.trans checked

/-- Both engines of a setup are built from its projection and a picture, if there is one. -/
theorem engines_eq {setup : Setup α} {projection : Projection α}
    (built : setup.projection.build CalibratedLens.defaultSamples = .ok projection) :
    setup.engine =
        (Engine.build projection setup.width setup.height setup.config setup.epipoleList).mapError .config ∧
      setup.viewportEngine =
        (ViewportEngine.build projection setup.width setup.height setup.config.offsetIndex).mapError .config := by
  rw [engine, viewportEngine, built]
  exact ⟨rfl, rfl⟩

/-- A setup that passes its checks has engines exactly if its picture is made of whole sub-blocks. They never
fault. The unit at each precision that a request is served with is a power of two, if 64 bits hold it: the
precision of its vector, and those of its corners, to which chroma adds its shifts. -/
theorem neverFaults_of_check [LawfulSame α] [LawfulHalves α] [RealValued α] [LawfulOrder α] [LawfulInfinities α]
    [LawfulLens α] [LawfulArccos α] {setup : Setup α} (checked : setup.check = .ok ()) :
    let whole := 0 < setup.width ∧ 0 < setup.height ∧ 4 ∣ setup.width ∧ 4 ∣ setup.height
    let refusal : BuildError := .config (.invalidResolution setup.width setup.height)
    (whole → (∃ e, setup.engine = .ok e ∧ e.NeverFaults) ∧ ∃ v, setup.viewportEngine = .ok v ∧ v.NeverFaults) ∧
      (¬whole → setup.engine = .error refusal ∧ setup.viewportEngine = .error refusal) ∧
      ∀ request : Request α, ∀ precision ∈ request.precisions, precision ≤ 62 →
        FixedPoint.scale precision = 2 ^ precision := by
  intro whole refusal
  obtain ⟨⟨offset, offsetAccepted⟩, accepted⟩ := accepted_of_check checked
  obtain ⟨projection, built⟩ :=
    ProjectionParams.exists_build accepted (show 2 ≤ CalibratedLens.defaultSamples by decide)
  have total : projection.Total := ProjectionParams.total_of_build built (by decide)
  obtain ⟨isEngine, isViewportEngine⟩ := engines_eq built
  obtain ⟨made, refused⟩ := SubblockPicture.ofOffsetIndex_eq setup.width setup.height offsetAccepted
  rw [Engine.build_eq] at isEngine
  rw [ViewportEngine.build_eq] at isViewportEngine
  refine ⟨fun isWhole => ?_, fun ragged => ?_, fun request precision _ small => ?_⟩
  · obtain ⟨picture, isPicture⟩ := made isWhole
    rw [isPicture] at isEngine isViewportEngine
    refine ⟨⟨_, isEngine, ?_⟩, ⟨_, isViewportEngine, ?_⟩⟩
    · exact Engine.neverFaults_of_built (by rw [Engine.build_eq, isPicture]; rfl) total
    · exact ViewportEngine.neverFaults_of_built (by rw [ViewportEngine.build_eq, isPicture]; rfl) total
  · rw [refused ragged] at isEngine isViewportEngine
    exact ⟨isEngine, isViewportEngine⟩
  · rw [FixedPoint.scale_eq (by omega)]
    push_cast
    rfl

/-- A calibrated fisheye that is a straight line, in exact arithmetic and in doubles. A chroma block of it may
be moved at precision 61, for which its corners have one bit more. -/
theorem neverFaults_of_check_of_calibrated :
    let setup : Setup Exact :=
      ⟨.calibrated [ofInt 0, ofInt 320] (ofInt 8) (ofInt 4), 16, 8, { active := .everything }, []⟩
    let stored : Setup (WithArccos Double Double.arccos) :=
      ⟨.calibrated [ofInt 0, ofInt 320] (ofInt 8) (ofInt 4), 16, 8, { active := .everything }, []⟩
    let moved : MovedBlock := ⟨⟨0, 0, 4, 4⟩, ⟨3, -1⟩, 61, .cb, .yuv420⟩
    (setup.check = .ok () ∧ (∃ e, setup.engine = .ok e ∧ e.NeverFaults) ∧
      ∃ v, setup.viewportEngine = .ok v ∧ v.NeverFaults) ∧
    (stored.check = .ok () ∧ (∃ e, stored.engine = .ok e ∧ e.NeverFaults) ∧
      ∃ v, stored.viewportEngine = .ok v ∧ v.NeverFaults) ∧
    62 ∈ moved.precisions ∧ FixedPoint.scale 62 = 2 ^ 62 := by
  intro setup stored moved
  have positive : (0 : Exact) < ofInt 320 := by
    rw [Exact.ofNat_eq, Exact.ofInt_eq, Exact.real_lt]
    norm_num
  have checked : setup.check = .ok () := if_pos positive
  have checkedStored : stored.check = .ok () := rfl
  obtain ⟨engines, -, scales⟩ := neverFaults_of_check checkedStored
  have shifted : 62 ∈ moved.precisions := by decide
  exact ⟨⟨checked, (neverFaults_of_check checked).1 (by decide)⟩, ⟨checkedStored, engines (by decide)⟩, shifted,
    scales (.reproject moved .spatial .global) 62 shifted le_rfl⟩

end Setup

end SphereMotion
