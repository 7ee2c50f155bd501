import Mathlib
import SphereMotion.Proofs.EpipoleHistory
import SphereMotion.Proofs.InPlaceCalls

namespace SphereMotion

open Scalar

variable {α : Type} [Scalar α]

/-- Why the camera pose has no epipole for a picture pair, if it has none. -/
def EpipoleList.refusal (list : EpipoleList) (model : ModelId) (pair : PicturePair) : Option EngineError :=
  if model = .geodesicCameraPose ∧
      ∀ tier ∈ pair.tiers, ∀ e ∈ list.entries, e.pair = tier → e.isAvailable = false then
    some (.epipole (.notFound pair))
  else none

/-- Why a request is refused, if it is. What would be refused for several reasons is refused for the
first of them. -/
def Request.refusal (config : Config) (width height : Nat) (list : EpipoleList) : Request α → Option EngineError
  | .reproject ⟨⟨x, y, w, h⟩, _, _, component, chroma⟩ model pair =>
    let pictureWidth := width >>> (component.shifts chroma).1
    let pictureHeight := height >>> (component.shifts chroma).2
    if config.active.contains model = false then some (.inactiveModel model)
    else if component ≠ .y ∧ chroma = .yuv400 then some (.noChroma component)
    else if ¬4 ∣ x ∨ ¬4 ∣ y ∨ ¬4 ∣ w ∨ ¬4 ∣ h ∨ w = 0 ∨ h = 0 then some (.misaligned ⟨x, y, w, h⟩)
    else if pictureWidth < x + w ∨ pictureHeight < y + h then
      some (.outsidePicture ⟨x, y, w, h⟩ pictureWidth pictureHeight)
    else list.refusal model pair
  | .convert c =>
    if config.active.contains c.source = false then some (.inactiveModel c.source)
    else if config.active.contains c.target = false then some (.inactiveModel c.target)
    else (list.refusal c.source c.sourcePair).or (list.refusal c.target c.targetPair)
  | .addEpipole .. | .makeAvailable _ => none

/-- A result that is an error just for a reason to refuse it, if there is one. -/
def RefusedAs {β : Type} (reason : Option EngineError) (result : Except EngineError β) : Prop :=
  match reason with
  | some cause => result = .error cause
  | none => ∃ value, result = .ok value

namespace RefusedAs

variable {β γ : Type} {reason reason' : Option EngineError} {result : Except EngineError β}

theorem of_check {check : Prop} [Decidable check] {cause : EngineError}
    (passed : ¬check → RefusedAs reason result) :
    RefusedAs (if check then some cause else reason) (if check then .error cause else result) := by
  by_cases failed : check
  · rw [if_pos failed, if_pos failed]
    exact rfl
  · rw [if_neg failed, if_neg failed]
    exact passed failed

/-- The first reason to refuse any part refuses the whole. -/
theorem bind {next : β → Except EngineError γ} (before : RefusedAs reason result)
    (after : ∀ value, result = .ok value → RefusedAs reason' (next value)) :
    RefusedAs (reason.or reason') (result >>= next) := by
  cases reason with
  | some cause =>
    obtain rfl : result = .error cause := before
    exact rfl
  | none =>
    obtain ⟨value, rfl⟩ := before
    exact after value rfl

theorem error_iff (refusedAs : RefusedAs reason result) {cause : EngineError} :
    result = .error cause ↔ reason = some cause := by
  cases reason with
  | some first =>
    obtain rfl : result = .error first := refusedAs
    rw [Except.error.injEq, Option.some.injEq]
  | none =>
    obtain ⟨value, rfl⟩ := refusedAs
    exact ⟨nofun, nofun⟩

end RefusedAs

theorem EpipoleList.findSome?_available?_eq_none_iff {list : EpipoleList} {pair : PicturePair} :
    pair.tiers.findSome? list.available? = none ↔
      ∀ tier ∈ pair.tiers, ∀ e ∈ list.entries, e.pair = tier → e.isAvailable = false := by
  have none (tier : PicturePair) :
      list.available? tier = none ↔ ∀ e ∈ list.entries, e.pair = tier → e.isAvailable = false := by
    rw [available?, List.find?_eq_none]
    simp
  simp only [List.findSome?_eq_none_iff, none]

/-- The camera pose is refused its epipole exactly if no tier has an available one. -/
theorem EpipoleList.refusedAs_forModel (list : EpipoleList) (model : ModelId) (pair : PicturePair) :
    RefusedAs (list.refusal model pair) (list.forModel model pair : Except EngineError (Option (Vec3 α))) := by
  unfold refusal forModel
  by_cases pose : model = .geodesicCameraPose
  · cases tiers : pair.tiers.findSome? list.available? with
    | none =>
      rw [if_pos ⟨pose, findSome?_available?_eq_none_iff.mp tiers⟩, if_pos pose, find_eq, tiers]
      exact rfl
    | some e =>
      have found : ¬∀ tier ∈ pair.tiers, ∀ e ∈ list.entries, e.pair = tier → e.isAvailable = false := by
        rw [← findSome?_available?_eq_none_iff, tiers]
        rintro ⟨⟩
      rw [if_neg (fun both => found both.2), if_pos pose, find_eq, tiers]
      exact ⟨_, rfl⟩
  · rw [if_neg (fun both => pose both.1), if_neg pose]
    exact ⟨_, rfl⟩

/-- The checks on a block, in the terms of the refusals. -/
theorem SubblockPicture.refusedAs_locate (p : SubblockPicture α) (x y w h : Nat) (component : Component)
    (chroma : ChromaFormat) :
    let width := p.width >>> (component.shifts chroma).1
    let height := p.height >>> (component.shifts chroma).2
    RefusedAs
      (if component ≠ .y ∧ chroma = .yuv400 then some (.noChroma component)
      else if ¬4 ∣ x ∨ ¬4 ∣ y ∨ ¬4 ∣ w ∨ ¬4 ∣ h ∨ w = 0 ∨ h = 0 then some (.misaligned ⟨x, y, w, h⟩)
      else if width < x + w ∨ height < y + h then some (.outsidePicture ⟨x, y, w, h⟩ width height)
      else none) (p.locate ⟨x, y, w, h⟩ component chroma) := by
  have sampled : (component.isLuma = false ∧ chroma.hasChroma = false) ↔ (component ≠ .y ∧ chroma = .yuv400) := by
    cases component <;> cases chroma <;> decide
  simp only [locate_eq, sampled, Nat.dvd_iff_mod_eq_zero]
  exact .of_check fun _ => .of_check fun _ => .of_check fun _ => ⟨_, rfl⟩

/-- Only a luma block that lies outside of its picture has no samples. -/
theorem SubblockPicture.OnLattice.exists_moveBlock {p : SubblockPicture α} {halves : Nat}
    (regular : p.OnLattice halves) {moved : MovedBlock} {block : LocatedBlock α}
    (located : p.locate moved.block moved.component moved.chroma = .ok block) (model : MotionModel α) :
    ∃ corners, p.moveBlock model moved block = .ok corners := by
  cases luma : block.isLuma with
  | true =>
    obtain ⟨samples, inside⟩ := regular.exists_window_of_located located luma
    have cut : p.samples block = .ok samples := by rw [SubblockPicture.samples, if_pos luma, inside]
    rw [moveBlock, cut]
    exact ⟨_, rfl⟩
  | false => exact ⟨_, moveBlock_of_chroma luma p model moved⟩

namespace Plan

variable {plan : Plan α} {halves : Nat}

theorem refusedAs_require (id : ModelId) :
    RefusedAs (if plan.config.active.contains id = false then some (.inactiveModel id) else none)
      (plan.require id) := by
  unfold require
  cases plan.config.active.contains id with
  | false => exact rfl
  | true => exact ⟨(), rfl⟩

theorem refusedAs_reproject (regular : plan.picture.OnLattice halves) (moved : MovedBlock) (id : ModelId)
    (pair : PicturePair) :
    RefusedAs (Request.refusal plan.config plan.picture.width plan.picture.height plan.epipoles
      (.reproject moved id pair : Request α)) (plan.reproject moved id pair) := by
  have moves {block : LocatedBlock α}
      (located : plan.picture.locate moved.block moved.component moved.chroma = .ok block)
      (model : MotionModel α) : RefusedAs none (plan.picture.moveBlock model moved block) :=
    regular.exists_moveBlock located model
  obtain ⟨⟨x, y, w, h⟩, vector, precision, component, chroma⟩ := moved
  have answered := (plan.refusedAs_require id).bind fun _ _ =>
    (plan.picture.refusedAs_locate x y w h component chroma).bind fun _ located =>
      (plan.epipoles.refusedAs_forModel id pair).bind fun epipole _ => moves located (plan.motionModel id epipole)
  refine Eq.subst (motive := (RefusedAs · (plan.reproject _ id pair))) ?_ answered
  simp only [Request.refusal, Option.or_none]
  split_ifs <;> rfl

theorem refusedAs_convert (c : Conversion α) :
    RefusedAs ((Request.convert c).refusal plan.config plan.picture.width plan.picture.height plan.epipoles)
      (plan.convert c) := by
  refine Eq.subst (motive := (RefusedAs · (plan.convert c))) ?_
    ((plan.refusedAs_require c.source).bind fun _ _ => (plan.refusedAs_require c.target).bind fun _ _ =>
      (plan.epipoles.refusedAs_forModel c.source c.sourcePair).bind fun _ _ =>
        (plan.epipoles.refusedAs_forModel c.target c.targetPair).bind fun _ _ => show RefusedAs none _ from ?_)
  · simp only [Request.refusal, Option.or_none]
    split_ifs <;> rfl
  · split <;> exact ⟨_, rfl⟩

/-- Without a memory, a request is refused as its refusal says. -/
theorem reply_eq_refused_iff (regular : plan.picture.OnLattice halves) (request : Request α) {cause : EngineError} :
    plan.reply request = .refused cause ↔
      request.refusal plan.config plan.picture.width plan.picture.height plan.epipoles = some cause := by
  cases request with
  | addEpipole | makeAvailable => exact ⟨nofun, nofun⟩
  | reproject moved id pair =>
    rw [← (refusedAs_reproject regular moved id pair).error_iff, reply]
    cases plan.reproject moved id pair <;> simp
  | convert c =>
    rw [← (plan.refusedAs_convert c).error_iff, reply]
    cases plan.convert c <;> simp

theorem reply_eq (regular : plan.picture.OnLattice halves) (request : Request α) :
    match request.refusal plan.config plan.picture.width plan.picture.height plan.epipoles with
    | some cause => plan.reply request = .refused cause
    | none => ∀ cause, plan.reply request ≠ .refused cause := by
  cases reason : request.refusal plan.config plan.picture.width plan.picture.height plan.epipoles with
  | some cause => exact (reply_eq_refused_iff regular request).mpr reason
  | none =>
    intro cause refused
    cases reason.symm.trans ((reply_eq_refused_iff regular request).mp refused)

end Plan

namespace Engine

theorem serve_of_refused {e : Engine α} {request : Request α} {cause : EngineError}
    (refused : (e.serve request).1 = .refused cause) : e.serve request = (.refused cause, e) := by
  cases request with
  | reproject moved model pair =>
    rw [serve] at refused ⊢
    cases served : e.reproject moved model pair with
    | ok => rw [served] at refused; cases refused
    | error other => rw [served] at refused; rw [Reply.refused.inj refused]
  | convert c =>
    rw [serve] at refused ⊢
    cases served : e.convert c with
    | ok => rw [served] at refused; cases refused
    | error other => rw [served] at refused; rw [Reply.refused.inj refused]
  | addEpipole | makeAvailable => cases refused

section Built

variable [LawfulSame α] [LawfulHalves α] {projection : Projection α} {width height : Nat} {config : Config}
  {epipoles : EpipoleList} {start : Engine α} (built : build projection width height config epipoles = .ok start)
  (history : List (Request α))
include built

theorem runInPlace_of_built : start.runInPlace history = start.serveAll history := by
  obtain ⟨picture, made, rfl⟩ := exists_picture built
  obtain ⟨rfl, rfl, halves, regular⟩ := SubblockPicture.onLattice_of_made made
  exact (Sound.ofPicture projection config epipoles picture).runInPlace_eq regular history

theorem run_serve_runInPlace (request : Request α) :
    match request.refusal config width height (start.runInPlace history).epipoles with
    | some cause => (Call.serve request).run (start.runInPlace history) = (.error cause, start.runInPlace history)
    | none => ∃ reply next, (Call.serve request).run (start.runInPlace history) = (.ok reply, next) ∧
      (start.runInPlace history).serve request = (reply, next) := by
  have same := runInPlace_of_built built history
  generalize start.runInPlace history = e at same
  obtain ⟨picture, made, rfl⟩ := exists_picture built
  obtain ⟨rfl, rfl, halves, regular⟩ := SubblockPicture.onLattice_of_made made
  obtain ⟨sound, plan⟩ := (Sound.ofPicture projection config epipoles picture).serveAll history
  rw [← same] at sound plan
  have keeps : e.picture.forget = picture.forget := congrArg Plan.picture plan
  have nowRegular := regular.of_forget keeps
  have ran := sound.run_serve nowRegular request
  have answer := (sound.serve request).1
  have refused := Plan.reply_eq (show e.plan.picture.OnLattice halves from nowRegular.forget) request
  rw [← answer, show e.plan.config = config from congrArg Plan.config plan,
    show e.plan.picture.width = picture.width from congrArg (·.picture.width) plan,
    show e.plan.picture.height = picture.height from congrArg (·.picture.height) plan,
    show e.plan.epipoles = e.epipoles from rfl] at refused
  rw [ran]
  cases reason : request.refusal config picture.width picture.height e.epipoles with
  | some cause =>
    rw [reason] at refused
    rw [serve_of_refused refused]
  | none =>
    rw [reason] at refused
    generalize e.serve request = served at refused
    obtain ⟨reply, next⟩ := served
    cases reply with
    | refused cause => exact absurd rfl (refused cause)
    | corners | vector | done => exact ⟨_, _, rfl, rfl⟩

end Built

/-- Whatever was asked of a built engine, a request that is served in place is refused for the first reason
that there is to refuse it, and then leaves everything in the engine as it was. Without a reason it is
answered, as on a value. -/
theorem run_serve_of_built [LawfulSame α] [LawfulHalves α] {projection : Projection α} {width height : Nat}
    {config : Config} {epipoles : EpipoleList} {start : Engine α}
    (built : build projection width height config epipoles = .ok start) (history : List (Request α))
    (request : Request α) :
    let e := start.runInPlace history
    e = start.serveAll history ∧
      match request.refusal config width height e.epipoles with
      | some cause => (Call.serve request).run e = (.error cause, e)
      | none => ∃ reply next, (Call.serve request).run e = (.ok reply, next) ∧ e.serve request = (reply, next) :=
  ⟨runInPlace_of_built built history, run_serve_runInPlace built history request⟩

/-- A camera pose that has moved a block and is then asked for pictures without an epipole: as a model that is
given, and as the target of a zero vector. -/
theorem run_serve_of_built_of_lost_epipole :
    let projection : Projection Double :=
      .panorama ⟨.ofBits 0x4030000000000000, .ofBits 0x4020000000000000, .ofBits 0⟩
    let config : Config := { active := { geodesicCameraPose := true, planeLeftRight := true } }
    let moved : MovedBlock := ⟨⟨4, 0, 8, 4⟩, ⟨3, -1⟩, 2, .y, .yuv420⟩
    let lost : EngineError := .epipole (.notFound ⟨3, 1⟩)
    let conversion : Conversion Double :=
      ⟨.zero, 2, .planeLeftRight, .geodesicCameraPose, .origin, .origin, .origin, .global, ⟨3, 1⟩⟩
    let history : List (Request Double) :=
      [.addEpipole .unitX ⟨5, -1⟩ true, .reproject moved .geodesicCameraPose ⟨5, 2⟩,
        .reproject moved .spatial ⟨5, 2⟩]
    ∃ start, build projection 16 8 config .initial = .ok start ∧
      let e := start.runInPlace history
      (Call.serve (.reproject moved .geodesicCameraPose ⟨3, 1⟩)).run e = (.error lost, e) ∧
      (Call.serve (.convert conversion)).run e = (.error lost, e) ∧
      (Call.serve (.reproject { moved with component := .cb, chroma := .yuv400 } .planeLeftRight ⟨3, 1⟩)).run e =
        (.error (.noChroma .cb), e) := by
  intro projection config moved lost conversion history
  have built : ∃ start, build projection 16 8 config .initial = .ok start := ⟨_, rfl⟩
  obtain ⟨start, built⟩ := built
  refine ⟨start, built, ?_⟩
  intro e
  have known : e.epipoles = history.foldl EpipoleList.edit .initial := by
    obtain ⟨_, -, -, plan⟩ := run_of_built built history
    rw [show e = start.serveAll history from (run_serve_of_built built history (.makeAvailable 0)).1]
    exact congrArg Plan.epipoles plan
  have refused {request : Request Double} {cause : EngineError}
      (reason : request.refusal config 16 8 (history.foldl EpipoleList.edit .initial) = some cause) :
      (Call.serve request).run e = (.error cause, e) := by
    have served := (run_serve_of_built built history request).2
    rwa [show (start.runInPlace history).epipoles = _ from known, reason] at served
  refine ⟨refused ?_, refused ?_, refused ?_⟩ <;> simp only [history, config, conversion, lost, moved] <;> rfl

end Engine

end SphereMotion
