import Mathlib
import SphereMotion.Proofs.Memoryless

namespace SphereMotion

variable {α : Type} [Scalar α]

namespace Engine

/-- The engine without its memory. -/
def plan (e : Engine α) : Plan α := ⟨e.config, e.projection, e.picture.forget, e.epipoles⟩

theorem slot?_setSlot (e : Engine α) (model id : ModelId) (slot : Slot α) :
    (e.setSlot model slot).slot? id = if id = model then (e.slot? id).map fun _ => slot else e.slot? id := by
  unfold slot? setSlot
  induction e.slots with
  | nil => simp
  | cons entry rest ih =>
    obtain ⟨first, old⟩ := entry
    by_cases here : id = first
    · subst here
      simp only [List.map_cons, List.lookup_cons_self, Option.map_some]
      split <;> rfl
    · have other : (id == first) = false := beq_false_of_ne here
      simp only [List.map_cons, List.lookup_cons, other]
      exact ih

/-- What holds of an engine from the moment it is built: its slots are those of the active models, each filled
from the picture, for some epipole or other. -/
structure Sound (e : Engine α) : Prop where
  active (id : ModelId) : (e.slot? id).isSome = e.config.active.contains id
  seeded {id : ModelId} {slot : Slot α} (present : e.slot? id = some slot) :
    ∃ epipole, slot.forget = .seeded e.picture.grid (id.motionModel e.config.flavor e.projection epipole)

def ofPicture (projection : Projection α) (config : Config) (epipoles : EpipoleList) (picture : SubblockPicture α) :
    Engine α :=
  ⟨config, projection, picture, epipoles, config.active.toList.map fun id =>
    (id, .build id config.flavor projection (projection.unprojectGrid picture.grid))⟩

theorem build_eq (projection : Projection α) (width height : Nat) (config : Config) (epipoles : EpipoleList) :
    build projection width height config epipoles =
      (SubblockPicture.ofOffsetIndex width height config.offsetIndex).map
        (ofPicture projection config epipoles) := by
  unfold build SubblockPicture.ofOffsetIndex
  cases (Config.offset config.offsetIndex : Except ConfigError α) with
  | error cause => rfl
  | ok offset =>
    simp only [bind, Except.bind]
    cases SubblockPicture.build width height offset <;> rfl

theorem exists_picture {projection : Projection α} {width height : Nat} {config : Config} {epipoles : EpipoleList}
    {e : Engine α} (built : build projection width height config epipoles = .ok e) :
    ∃ picture, SubblockPicture.ofOffsetIndex width height config.offsetIndex = .ok picture ∧
      e = ofPicture projection config epipoles picture := by
  rw [build_eq] at built
  obtain ⟨picture, made, rfl⟩ := exists_of_map_eq_ok built
  exact ⟨picture, made, rfl⟩

theorem lookup_map_pair {β : Type} (ids : List ModelId) (value : ModelId → β) (id : ModelId) :
    (ids.map fun id => (id, value id)).lookup id = if id ∈ ids then some (value id) else none := by
  induction ids with
  | nil => rfl
  | cons first rest ih =>
    by_cases here : id = first
    · subst here
      simp
    · have other : (id == first) = false := beq_false_of_ne here
      simp [List.lookup_cons, other, ih, here]

end Engine

theorem ActiveModels.mem_toList {active : ActiveModels} {id : ModelId} :
    id ∈ active.toList ↔ active.contains id = true := by
  rw [toList, List.mem_filter]
  exact and_iff_right (by cases id <;> decide)

namespace Engine

theorem slot?_ofPicture (projection : Projection α) (config : Config) (epipoles : EpipoleList)
    (picture : SubblockPicture α) (id : ModelId) :
    (ofPicture projection config epipoles picture).slot? id =
      if config.active.contains id then
        some (.seeded picture.grid (id.motionModel config.flavor projection none))
      else none := by
  rw [slot?, ofPicture, lookup_map_pair, Slot.build_eq_seeded]
  simp only [ActiveModels.mem_toList]

theorem Sound.ofPicture (projection : Projection α) (config : Config) (epipoles : EpipoleList)
    (picture : SubblockPicture α) : (ofPicture projection config epipoles picture).Sound where
  active id := by
    rw [slot?_ofPicture]
    cases active : config.active.contains id <;> simp [Engine.ofPicture, active]
  seeded {id slot} present := by
    rw [slot?_ofPicture] at present
    split at present
    · cases present
      exact ⟨none, Slot.forget_seeded _ _⟩
    · cases present

/-- An engine that goes on with the plan of another. -/
structure Continues (e next : Engine α) : Prop where
  sound : next.Sound
  plan : next.plan = e.plan

namespace Sound

variable {e : Engine α}

theorem slot_of_inactive (sound : e.Sound) {id : ModelId} (inactive : e.config.active.contains id = false) :
    e.slot id = .error (.inactiveModel id) := by
  have missing : e.slot? id = none := by simpa [inactive] using sound.active id
  rw [slot, missing]

theorem slot_of_active (sound : e.Sound) {id : ModelId} (active : e.config.active.contains id = true) :
    ∃ slot epipole, e.slot id = .ok slot ∧
      slot.forget = .seeded e.picture.grid (id.motionModel e.config.flavor e.projection epipole) := by
  rw [← sound.active, Option.isSome_iff_exists] at active
  obtain ⟨slot, present⟩ := active
  obtain ⟨epipole, seeded⟩ := sound.seeded present
  exact ⟨slot, epipole, by rw [Engine.slot, present], seeded⟩

theorem setSlot (sound : e.Sound) {model : ModelId} {slot : Slot α} {epipole : Option (Vec3 α)}
    (seeded : slot.forget = .seeded e.picture.grid (model.motionModel e.config.flavor e.projection epipole)) :
    (e.setSlot model slot).Sound where
  active id := by
    rw [slot?_setSlot, ← show e.config = (e.setSlot model slot).config from rfl, ← sound.active]
    split <;> simp
  seeded {id found} present := by
    rw [slot?_setSlot] at present
    split at present
    next here =>
      obtain ⟨_, -, rfl⟩ := Option.map_eq_some_iff.mp present
      exact ⟨epipole, here ▸ seeded⟩
    next => exact sound.seeded present

theorem setPicture (sound : e.Sound) {picture : SubblockPicture α} (kept : picture.forget = e.picture.forget) :
    { e with picture }.Sound where
  active := sound.active
  seeded {id slot} present := by
    have grid : picture.grid = e.picture.grid := SubblockPicture.grid_eq kept
    obtain ⟨epipole, seeded⟩ := sound.seeded present
    exact ⟨epipole, grid ▸ seeded⟩

/-- A model that is refused by the plan has no slot. -/
theorem follows_slot {β : Type} (sound : e.Sound) (id : ModelId) {answer : Except EngineError β}
    {serve : Slot α → Except EngineError (β × Engine α)}
    (each : ∀ slot epipole, e.config.active.contains id = true →
      slot.forget = .seeded e.picture.grid (e.plan.motionModel id epipole) →
        Follows e.Continues answer (serve slot)) :
    Follows e.Continues (e.plan.require id >>= fun _ => answer) (e.slot id >>= serve) := by
  cases active : e.config.active.contains id with
  | false =>
    have refused : e.plan.require id = .error (.inactiveModel id) := if_neg (by simp [plan, active])
    rw [sound.slot_of_inactive active, refused]
    exact .error
  | true =>
    have allowed : e.plan.require id = .ok () := if_pos active
    obtain ⟨slot, epipole, present, seeded⟩ := sound.slot_of_active active
    rw [present, allowed]
    exact each slot epipole active seeded

variable [LawfulSame α]

/-- Moving a block depends on the plan only, and leaves the plan as it is. -/
theorem reproject (sound : e.Sound) (moved : MovedBlock) (id : ModelId) (pair : PicturePair) :
    Follows e.Continues (e.plan.reproject moved id pair) (e.reproject moved id pair) := by
  apply sound.follows_slot id
  intro slot before _ seeded
  apply Follows.bind
  intro block _
  apply Follows.bind
  intro epipole given
  have filled : (slot.setEpipole epipole).forget = .seeded e.picture.grid (e.plan.motionModel id epipole) :=
    Slot.forget_setEpipole_of_seeded seeded (EpipoleList.isSome_of_forModel given)
  cases luma : block.isLuma with
  | true =>
    apply SubblockPicture.follows_lumaBlock luma
    intro samples picture inside kept
    obtain ⟨next, cut, nextFilled⟩ :=
      Slot.moveCached_of_inside filled inside (moved.vector.toVec2 moved.precision) block.center
    have nextSound := (sound.setSlot nextFilled).setPicture kept
    have plan : Plan.mk e.config e.projection picture.forget e.epipoles = e.plan :=
      congrArg (Plan.mk e.config e.projection · e.epipoles) kept
    simp only [cut, Except.mapError, bind, Except.bind]
    exact .ok ⟨nextSound, plan⟩
  | false =>
    rw [SubblockPicture.moveBlock_of_chroma luma]
    simp only [Bool.false_eq_true, if_false, Slot.model_eq filled]
    exact .ok ⟨sound.setSlot filled, rfl⟩

/-- Converting a vector depends on the plan only, and leaves the plan as it is. -/
theorem convert (sound : e.Sound) (c : Conversion α) : Follows e.Continues (e.plan.convert c) (e.convert c) := by
  apply sound.follows_slot c.source
  intro source _ _ sourceSeeded
  apply sound.follows_slot c.target
  intro _ _ active _
  apply Follows.bind
  intro sourceEpipole givenSource
  apply Follows.bind
  intro targetEpipole givenTarget
  split
  next => exact .ok ⟨sound, rfl⟩
  next =>
    have sourceFilled := Slot.forget_setEpipole_of_seeded sourceSeeded (EpipoleList.isSome_of_forModel givenSource)
    -- Source and target may share a slot, so the target is looked up in the engine that the source has left.
    have moved : (e.setSlot c.source (source.setEpipole sourceEpipole)).Sound := sound.setSlot sourceFilled
    obtain ⟨target, _, present, targetSeeded⟩ := moved.slot_of_active active
    have targetFilled := Slot.forget_setEpipole_of_seeded targetSeeded (EpipoleList.isSome_of_forModel givenTarget)
    simp only [present, bind, Except.bind, Slot.model_eq sourceFilled, Slot.model_eq targetFilled]
    exact .ok ⟨moved.setSlot targetFilled, rfl⟩

/-- A request is answered as the plan says, and changes nothing of the plan but the list of epipoles. -/
theorem serve (sound : e.Sound) (request : Request α) :
    (e.serve request).1 = e.plan.reply request ∧ (e.serve request).2.Sound ∧
      (e.serve request).2.plan = e.plan.next request := by
  cases request with
  | reproject moved id pair =>
    have follows := sound.reproject moved id pair
    rw [Engine.serve, Plan.reply]
    generalize e.plan.reproject moved id pair = answer, e.reproject moved id pair = served at *
    cases follows with
    | ok continues => exact ⟨rfl, continues.sound, continues.plan⟩
    | error => exact ⟨rfl, sound, rfl⟩
  | convert c =>
    have follows := sound.convert c
    rw [Engine.serve, Plan.reply]
    generalize e.plan.convert c = answer, e.convert c = served at *
    cases follows with
    | ok continues => exact ⟨rfl, continues.sound, continues.plan⟩
    | error => exact ⟨rfl, sound, rfl⟩
  | addEpipole epipole pair isAvailable => exact ⟨rfl, ⟨sound.active, sound.seeded⟩, rfl⟩
  | makeAvailable current => exact ⟨rfl, ⟨sound.active, sound.seeded⟩, rfl⟩

theorem serveAll (sound : e.Sound) (requests : List (Request α)) :
    (e.serveAll requests).Sound ∧
      (e.serveAll requests).plan = { e.plan with epipoles := requests.foldl EpipoleList.edit e.epipoles } := by
  induction requests generalizing e with
  | nil => exact ⟨sound, rfl⟩
  | cons request rest ih =>
    obtain ⟨-, nextSound, kept⟩ := sound.serve request
    obtain ⟨runSound, run⟩ := ih nextSound
    refine ⟨runSound, ?_⟩
    have epipoles : (e.serve request).2.epipoles = e.epipoles.edit request := congrArg Plan.epipoles kept
    rw [serveAll_cons, run, kept, epipoles]
    rfl

end Sound

/-- After any requests a built engine is sound, and of its plan only the epipoles have changed. -/
theorem run_of_built [LawfulSame α] {projection : Projection α} {width height : Nat} {config : Config}
    {epipoles : EpipoleList} {e : Engine α} (built : build projection width height config epipoles = .ok e)
    (requests : List (Request α)) :
    ∃ picture, SubblockPicture.ofOffsetIndex width height config.offsetIndex = .ok picture ∧
      (e.serveAll requests).Sound ∧
      (e.serveAll requests).plan =
        ⟨config, projection, picture.forget, requests.foldl EpipoleList.edit epipoles⟩ := by
  obtain ⟨picture, made, rfl⟩ := exists_picture built
  obtain ⟨sound, plan⟩ := (Sound.ofPicture projection config epipoles picture).serveAll requests
  exact ⟨picture, made, sound, plan⟩

/-- The answer to a request, whatever requests came before it, is the one that a fresh engine gives to it as its
first, built with the same settings and with the epipoles as they are now. These are the first ones and
whatever the requests have stored and made available, nothing else. -/
theorem answer_eq_fresh [LawfulSame α] {projection : Projection α} {width height : Nat} {config : Config}
    {epipoles : EpipoleList} {e : Engine α} (built : build projection width height config epipoles = .ok e)
    (history : List (Request α)) (request : Request α) :
    (e.serveAll history).epipoles = history.foldl EpipoleList.edit epipoles ∧
      ∃ fresh, build projection width height config (e.serveAll history).epipoles = .ok fresh ∧
        ((e.serveAll history).serve request).1 = (fresh.serve request).1 := by
  obtain ⟨picture, made, sound, plan⟩ := run_of_built built history
  have current : (e.serveAll history).epipoles = history.foldl EpipoleList.edit epipoles :=
    congrArg Plan.epipoles plan
  have freshSound := Sound.ofPicture projection config (history.foldl EpipoleList.edit epipoles) picture
  refine ⟨current, ofPicture projection config (history.foldl EpipoleList.edit epipoles) picture, ?_, ?_⟩
  · rw [current, build_eq, made]
    rfl
  · rw [(sound.serve request).1, (freshSound.serve request).1, plan]
    rfl

/-- A camera pose that was asked for with one epipole, converted from with another and is asked for again. -/
theorem answer_eq_fresh_of_epipole_change :
    let projection : Projection Double :=
      .panorama ⟨.ofBits 0x4030000000000000, .ofBits 0x4020000000000000, .ofBits 0⟩
    let config : Config := { active := .everything }
    let moved : MovedBlock := ⟨⟨4, 0, 8, 4⟩, ⟨3, -1⟩, 2, .y, .yuv420⟩
    let pair : PicturePair := ⟨3, 1⟩
    let conversion : Conversion Double :=
      ⟨⟨3, -1⟩, 2, .geodesicCameraPose, .planeLeftRight, .origin, .origin, .origin, .global, .global⟩
    let history : List (Request Double) :=
      [.addEpipole .unitX .global true, .reproject moved .geodesicCameraPose pair, .addEpipole .unitY pair true,
        .convert conversion, .reproject moved .planeLeftRight pair]
    let request : Request Double := .reproject moved .geodesicCameraPose pair
    ∃ e, build projection 16 8 config .initial = .ok e ∧
      (e.serveAll history).epipoles = history.foldl EpipoleList.edit .initial ∧
      ∃ fresh, build projection 16 8 config (e.serveAll history).epipoles = .ok fresh ∧
        ((e.serveAll history).serve request).1 = (fresh.serve request).1 := by
  intro projection config moved pair conversion history request
  have built : ∃ e, build projection 16 8 config .initial = .ok e := ⟨_, rfl⟩
  obtain ⟨e, built⟩ := built
  exact ⟨e, built, answer_eq_fresh built history request⟩

end Engine

end SphereMotion
