import Mathlib
import SphereMotion.Proofs.History
import SphereMotion.ViewportEngine

namespace SphereMotion

open Scalar

variable {α : Type} [Scalar α]

namespace Viewport

/-- The identifier of the motion model that is plain translation in the viewport. -/
def modelId : Viewport → ModelId
  | classic => .classic
  | plane .frontBack => .planeFrontBack
  | plane .leftRight => .planeLeftRight
  | plane .topBottom => .planeTopBottom

def motionModel (viewport : Viewport) (projection : Projection α) : MotionModel α :=
  match viewport with
  | classic => .translational
  | plane p => .plane ⟨projection, p⟩

theorem motionModel_modelId (viewport : Viewport) (flavor : GeodesicFlavor) (projection : Projection α)
    (epipole : Option (Vec3 α)) :
    viewport.modelId.motionModel flavor projection epipole = viewport.motionModel projection := by
  cases viewport with
  | classic => rfl
  | plane p => cases p <;> rfl

theorem modelId_inj {v w : Viewport} : v.modelId = w.modelId ↔ v = w := by
  rcases v with _ | _ | _ | _ <;> rcases w with _ | _ | _ | _ <;> decide

theorem forModel_modelId (viewport : Viewport) (list : EpipoleList) (pair : PicturePair) :
    list.forModel viewport.modelId pair = (.ok none : Except EngineError (Option (Vec3 α))) := by
  have other : viewport.modelId ≠ .geodesicCameraPose := by rcases viewport with _ | _ | _ | _ <;> decide
  exact if_neg other

end Viewport

namespace PerPlane

variable {β : Type}

@[simp] theorem get_ofFunction (value : MotionPlane → β) (plane : MotionPlane) :
    (ofFunction value).get plane = value plane := by
  cases plane <;> rfl

theorem get_set (values : PerPlane β) (plane other : MotionPlane) (value : β) :
    (values.set plane value).get other = if other = plane then value else values.get other := by
  cases plane <;> cases other <;> rfl

end PerPlane

namespace Viewport

/-- Where the motion model of a viewport takes a point. Block centers do not matter to it. -/
def shift (viewport : Viewport) (projection : Projection α) (position motion : Vec2 α) : Vec2 α :=
  (viewport.motionModel projection).movePoint position motion .origin

theorem movePoint_eq_shift (viewport : Viewport) (projection : Projection α) (position motion center : Vec2 α) :
    (viewport.motionModel projection).movePoint position motion center =
      viewport.shift projection position motion := by
  cases viewport <;> rfl

/-- A vector of one viewport in terms of another, by way of the motion models of the two. -/
def express (projection : Projection α) (vector : MotionVector) (precision : Nat) (source target : Viewport)
    (position : Vec2 α) : MotionVector :=
  if source = target ∨ vector.isZero then vector else
    let shifted := source.shift projection position (vector.toVec2 precision)
    let motion := (target.motionModel projection).vectorFor position shifted .origin
    (MotionVector.ofVec2? motion precision).getD .zero

/-- Whether a vector other than zero is asked for in another viewport which is a plane that sees the two ends of
the motion on different sides. -/
def Crosses (projection : Projection α) (vector : MotionVector) (precision : Nat) (source target : Viewport)
    (position : Vec2 α) : Prop :=
  source ≠ target ∧ vector.isZero = false ∧ ∃ p, target = plane p ∧
    (PlaneMotion.toPlanePoint ⟨projection, p⟩ (projection.unproject position)).isVirtual ≠
      (PlaneMotion.toPlanePoint ⟨projection, p⟩
        (projection.unproject (source.shift projection position (vector.toVec2 precision)))).isVirtual

end Viewport

/-- A vector on a motion plane turns around where the plane is virtual. -/
theorem PlaneMotion.vectorFor_eq [LawfulUnit α] (m : PlaneMotion α) (position shifted : Vec2 α) :
    m.vectorFor position shifted =
      let start := m.toPlanePoint (m.projection.unproject position)
      let step := (m.toPlanePoint (m.projection.unproject shifted)).point - start.point
      if start.isVirtual then -step else step := by
  simp only [vectorFor, PlanePoint.sign]
  split
  next => exact Vec2.sub_scale_neg_one ..
  next => exact Vec2.sub_scale_one ..

/-- Everything that the answers of a viewport engine depend on. -/
structure ViewportPlan (α : Type) [Scalar α] where
  projection : Projection α
  picture : SubblockPicture α

def ViewportPlan.reproject (plan : ViewportPlan α) (moved : MovedBlock) (viewport : Viewport) :
    Except EngineError SubblockCorners := do
  let block ← plan.picture.locate moved.block moved.component moved.chroma
  plan.picture.moveBlock (viewport.motionModel plan.projection) moved block

namespace Plan

theorem reproject_modelId {plan : Plan α} {viewport : Viewport}
    (active : plan.config.active.contains viewport.modelId = true) (moved : MovedBlock) (pair : PicturePair) :
    plan.reproject moved viewport.modelId pair =
      (ViewportPlan.mk plan.projection plan.picture).reproject moved viewport := by
  have allowed : plan.require viewport.modelId = .ok () := if_pos active
  simp only [reproject, ViewportPlan.reproject, allowed, viewport.forModel_modelId, motionModel,
    viewport.motionModel_modelId]
  rfl

theorem convert_modelId {plan : Plan α} {source target : Viewport}
    (sourceActive : plan.config.active.contains source.modelId = true)
    (targetActive : plan.config.active.contains target.modelId = true) (vector : MotionVector) (precision : Nat)
    (position candidateCenter currentCenter : Vec2 α) (sourcePair targetPair : PicturePair) :
    plan.convert ⟨vector, precision, source.modelId, target.modelId, position, candidateCenter, currentCenter,
      sourcePair, targetPair⟩ = .ok (Viewport.express plan.projection vector precision source target position) := by
  have sourceAllowed : plan.require source.modelId = .ok () := if_pos sourceActive
  have targetAllowed : plan.require target.modelId = .ok () := if_pos targetActive
  have bothNone : Engine.sameEpipole (none : Option (Vec3 α)) none = true := rfl
  simp only [convert, sourceAllowed, targetAllowed, source.forModel_modelId, target.forModel_modelId, motionModel,
    source.motionModel_modelId, target.motionModel_modelId, source.movePoint_eq_shift, Viewport.modelId_inj,
    bothNone, bind, Except.bind, Bool.and_true, Bool.or_eq_true, decide_eq_true_eq, Viewport.express,
    or_comm (a := source = target)]
  split
  next => rfl
  next => cases target <;> rfl

end Plan

namespace ViewportEngine

/-- The engine without its memory. -/
def plan (e : ViewportEngine α) : ViewportPlan α := ⟨e.projection, e.picture.forget⟩

def ofPicture (projection : Projection α) (picture : SubblockPicture α) : ViewportEngine α :=
  ⟨projection, picture, .ofFunction fun plane => .seed ⟨projection, plane⟩ (projection.unprojectGrid picture.grid)⟩

theorem build_eq (projection : Projection α) (width height offsetIndex : Nat) :
    build projection width height offsetIndex =
      (SubblockPicture.ofOffsetIndex width height offsetIndex).map (ofPicture projection) := by
  unfold build SubblockPicture.ofOffsetIndex
  cases (Config.offset offsetIndex : Except ConfigError α) with
  | error cause => rfl
  | ok offset =>
    simp only [bind, Except.bind]
    cases SubblockPicture.build width height offset <;> rfl

theorem exists_picture {projection : Projection α} {width height offsetIndex : Nat} {e : ViewportEngine α}
    (built : build projection width height offsetIndex = .ok e) :
    ∃ picture, SubblockPicture.ofOffsetIndex width height offsetIndex = .ok picture ∧
      e = ofPicture projection picture := by
  rw [build_eq] at built
  obtain ⟨picture, made, rfl⟩ := exists_of_map_eq_ok built
  exact ⟨picture, made, rfl⟩

/-- What holds of an engine from the moment it is built: every cache is filled from the picture. -/
structure Sound (e : ViewportEngine α) : Prop where
  filled (plane : MotionPlane) : (e.caches.get plane).picture =
    PlaneMotion.toPlane ⟨e.projection, plane⟩ (e.projection.unprojectGrid e.picture.grid)

theorem Sound.ofPicture (projection : Projection α) (picture : SubblockPicture α) :
    (ofPicture projection picture).Sound where
  filled plane := by
    rw [ViewportEngine.ofPicture, PerPlane.get_ofFunction]
    rfl

structure Continues (e next : ViewportEngine α) : Prop where
  sound : next.Sound
  plan : next.plan = e.plan

/-- The engine that a call leaves. A call that is refused leaves it as it was. -/
def after (e : ViewportEngine α) (call : MovedBlock × Viewport) : ViewportEngine α :=
  match e.reproject call.1 call.2 with
  | .ok (_, next) => next
  | .error _ => e

namespace Sound

variable {e : ViewportEngine α}

theorem setPicture (sound : e.Sound) {picture : SubblockPicture α} (kept : picture.forget = e.picture.forget) :
    { e with picture }.Sound where
  filled plane := by
    have grid : picture.grid = e.picture.grid := SubblockPicture.grid_eq kept
    rw [grid]
    exact sound.filled plane

theorem setCache (sound : e.Sound) {plane : MotionPlane} {cache : PlaneCache α}
    (kept : cache.picture = (e.caches.get plane).picture) :
    { e with caches := e.caches.set plane cache }.Sound where
  filled other := by
    rw [PerPlane.get_set]
    split
    next here => rw [kept, here, sound.filled]
    next => exact sound.filled other

theorem reproject (sound : e.Sound) (moved : MovedBlock) (viewport : Viewport) :
    Follows e.Continues (e.plan.reproject moved viewport) (e.reproject moved viewport) := by
  apply Follows.bind
  intro block _
  cases luma : block.isLuma with
  | true =>
    apply SubblockPicture.follows_lumaBlock luma
    intro samples picture inside kept
    have plan : ViewportPlan.mk e.projection picture.forget = e.plan := congrArg (ViewportPlan.mk e.projection) kept
    cases viewport with
    | classic => exact .ok ⟨sound.setPicture kept, plan⟩
    | plane p =>
      obtain ⟨next, cut, -⟩ :=
        PlaneMotion.moveCached_of_inside (sound.filled p) inside (moved.vector.toVec2 moved.precision)
      have sameCells := PlaneMotion.picture_moveCached cut
      simp only [cut, Except.mapError, bind, Except.bind]
      exact .ok ⟨(sound.setCache sameCells).setPicture kept, plan⟩
  | false =>
    rw [SubblockPicture.moveBlock_of_chroma luma]
    simp only [Bool.false_eq_true, if_false]
    cases viewport <;> exact .ok ⟨sound, rfl⟩

theorem after (sound : e.Sound) (call : MovedBlock × Viewport) : e.Continues (e.after call) := by
  have follows := sound.reproject call.1 call.2
  rw [ViewportEngine.after]
  generalize e.plan.reproject call.1 call.2 = answer, e.reproject call.1 call.2 = served at *
  cases follows with
  | ok continues => exact continues
  | error => exact ⟨sound, rfl⟩

theorem run (sound : e.Sound) (calls : List (MovedBlock × Viewport)) : e.Continues (calls.foldl .after e) := by
  induction calls generalizing e with
  | nil => exact ⟨sound, rfl⟩
  | cons call rest ih =>
    have first := sound.after call
    have others := ih first.sound
    exact ⟨others.sound, others.plan.trans first.plan⟩

end Sound

theorem run_of_built {projection : Projection α} {width height offsetIndex : Nat} {e : ViewportEngine α}
    (built : build projection width height offsetIndex = .ok e) (calls : List (MovedBlock × Viewport)) :
    ∃ picture, SubblockPicture.ofOffsetIndex width height offsetIndex = .ok picture ∧
      (calls.foldl .after e).Sound ∧ (calls.foldl .after e).plan = ⟨projection, picture.forget⟩ := by
  obtain ⟨picture, made, rfl⟩ := exists_picture built
  obtain ⟨sound, plan⟩ := (Sound.ofPicture projection picture).run calls
  exact ⟨picture, made, sound, plan⟩

theorem movePoint_eq_shift (e : ViewportEngine α) (viewport : Viewport) (position motion : Vec2 α) :
    e.movePoint viewport position motion = viewport.shift e.projection position motion := by
  cases viewport <;> rfl

variable {e : ViewportEngine α} {vector : MotionVector} {precision : Nat} {source target : Viewport}
  {position : Vec2 α}

theorem convert_of_crosses (crosses : Viewport.Crosses e.projection vector precision source target position) :
    e.convert vector precision source target position = .zero := by
  obtain ⟨differ, moving, p, rfl, sides⟩ := crosses
  have changed : ¬(source = .plane p ∨ vector.isZero = true) := by simp [differ, moving]
  simp only [convert, if_neg changed, e.movePoint_eq_shift, if_pos sides]
  rfl

/-- But for the rule about the sides of a plane, the conversion is that of the motion models. -/
theorem convert_of_not_crosses [LawfulUnit α]
    (stays : ¬Viewport.Crosses e.projection vector precision source target position) :
    e.convert vector precision source target position =
      Viewport.express e.projection vector precision source target position := by
  unfold convert Viewport.express
  split
  next => rfl
  next changed =>
    rw [not_or, Bool.not_eq_true] at changed
    cases target with
    | classic =>
      rw [e.movePoint_eq_shift]
      rfl
    | plane p =>
      have alike := Decidable.of_not_not fun differ => stays ⟨changed.1, changed.2, p, rfl, differ⟩
      simp only [e.movePoint_eq_shift, if_neg (not_not_intro alike), Option.bind_some, Viewport.motionModel,
        MotionModel.vectorFor, PlaneMotion.vectorFor_eq]

end ViewportEngine

section Agreement

variable {projection : Projection α} {v : ViewportEngine α} {e : Engine α}

/-- Whatever was asked of the two engines before, they move every block alike, or refuse it for the same reason. -/
theorem corners_eq_corners [LawfulSame α] {width height : Nat} {config : Config} {epipoles : EpipoleList}
    (builtViewports : ViewportEngine.build projection width height config.offsetIndex = .ok v)
    (built : Engine.build projection width height config epipoles = .ok e) {viewport : Viewport}
    (active : config.active.contains viewport.modelId = true) (calls : List (MovedBlock × Viewport))
    (requests : List (Request α)) (moved : MovedBlock) (pair : PicturePair) :
    ((calls.foldl .after v).reproject moved viewport).map Prod.fst =
      ((e.serveAll requests).reproject moved viewport.modelId pair).map Prod.fst := by
  obtain ⟨picture, made, soundViewports, planViewports⟩ := ViewportEngine.run_of_built builtViewports calls
  obtain ⟨picture', made', sound, plan⟩ := Engine.run_of_built built requests
  obtain rfl : picture = picture' := Except.ok.inj (made.symm.trans made')
  rw [(soundViewports.reproject moved viewport).map_fst, (sound.reproject moved viewport.modelId pair).map_fst,
    planViewports, plan, Plan.reproject_modelId active]

/-- One engine has served other planes, the other a camera pose and a conversion, before both move one block. -/
theorem corners_eq_corners_of_histories :
    let projection : Projection Double :=
      .panorama ⟨.ofBits 0x4030000000000000, .ofBits 0x4020000000000000, .ofBits 0⟩
    let config : Config := { active := .everything }
    let moved : MovedBlock := ⟨⟨4, 0, 8, 4⟩, ⟨3, -1⟩, 2, .y, .yuv420⟩
    let chroma : MovedBlock := ⟨⟨0, 0, 4, 4⟩, ⟨3, -1⟩, 2, .cb, .yuv420⟩
    let calls : List (MovedBlock × Viewport) := [(moved, .plane .frontBack), (chroma, .classic), (moved, .classic)]
    let requests : List (Request Double) :=
      [.addEpipole .unitX .global true, .reproject chroma .geodesicCameraPose .global,
        .convert ⟨⟨3, -1⟩, 2, .geodesicX, .planeLeftRight, .origin, .origin, .origin, .global, .global⟩]
    ∃ v e, ViewportEngine.build projection 16 8 config.offsetIndex = .ok v ∧
      Engine.build projection 16 8 config .initial = .ok e ∧
      ((calls.foldl .after v).reproject moved (.plane .leftRight)).map Prod.fst =
        ((e.serveAll requests).reproject moved .planeLeftRight .global).map Prod.fst := by
  intro projection config moved chroma calls requests
  have builtViewports : ∃ v, ViewportEngine.build projection 16 8 config.offsetIndex = .ok v := ⟨_, rfl⟩
  have built : ∃ e, Engine.build projection 16 8 config .initial = .ok e := ⟨_, rfl⟩
  obtain ⟨v, builtViewports⟩ := builtViewports
  obtain ⟨e, built⟩ := built
  have active : config.active.contains (Viewport.plane .leftRight).modelId = true := rfl
  exact ⟨v, e, builtViewports, built, corners_eq_corners builtViewports built active calls requests moved .global⟩

/-- Whatever was asked of the two engines before, and whatever the size of their pictures, they convert every
vector alike unless it is to cross the sides of a plane, which one of them answers with zero. -/
theorem vector_eq_zero_or_vector [LawfulSame α] [LawfulUnit α] {width height offsetIndex width' height' : Nat}
    {config : Config} {epipoles : EpipoleList}
    (builtViewports : ViewportEngine.build projection width height offsetIndex = .ok v)
    (built : Engine.build projection width' height' config epipoles = .ok e) {source target : Viewport}
    (sourceActive : config.active.contains source.modelId = true)
    (targetActive : config.active.contains target.modelId = true) (calls : List (MovedBlock × Viewport))
    (requests : List (Request α)) (vector : MotionVector) (precision : Nat)
    (position candidateCenter currentCenter : Vec2 α) (sourcePair targetPair : PicturePair) :
    ∃ general, ((e.serveAll requests).convert ⟨vector, precision, source.modelId, target.modelId, position,
        candidateCenter, currentCenter, sourcePair, targetPair⟩).map Prod.fst = .ok general ∧
      (Viewport.Crosses projection vector precision source target position →
        (calls.foldl .after v).convert vector precision source target position = .zero) ∧
      (¬Viewport.Crosses projection vector precision source target position →
        (calls.foldl .after v).convert vector precision source target position = general) := by
  obtain ⟨_, -, -, planViewports⟩ := ViewportEngine.run_of_built builtViewports calls
  obtain ⟨_, -, sound, plan⟩ := Engine.run_of_built built requests
  have sameProjection : (calls.foldl .after v).projection = projection :=
    congrArg ViewportPlan.projection planViewports
  refine ⟨Viewport.express projection vector precision source target position, ?_, ?_, ?_⟩
  · rw [(sound.convert _).map_fst, plan]
    exact Plan.convert_modelId sourceActive targetActive ..
  · intro crosses
    rw [← sameProjection] at crosses
    exact ViewportEngine.convert_of_crosses crosses
  · intro stays
    rw [← sameProjection] at stays
    rw [ViewportEngine.convert_of_not_crosses stays, sameProjection]

/-- The engines are of different sizes, and one vector goes from one plane to another. -/
theorem vector_eq_zero_or_vector_of_planes :
    let projection : Projection Double :=
      .panorama ⟨.ofBits 0x4030000000000000, .ofBits 0x4020000000000000, .ofBits 0⟩
    let config : Config := { active := { planeFrontBack := true, planeTopBottom := true } }
    let moved : MovedBlock := ⟨⟨4, 0, 8, 4⟩, ⟨3, -1⟩, 2, .y, .yuv420⟩
    let calls : List (MovedBlock × Viewport) := [(moved, .plane .frontBack)]
    let requests : List (Request Double) := [.reproject moved .planeTopBottom .global]
    let source : Viewport := .plane .frontBack
    let target : Viewport := .plane .topBottom
    ∃ v e, ViewportEngine.build projection 8 4 0 = .ok v ∧ Engine.build projection 16 8 config .initial = .ok e ∧
      ∃ general, ((e.serveAll requests).convert ⟨⟨3, -1⟩, 2, source.modelId, target.modelId, .origin, .origin,
          .origin, .global, .global⟩).map Prod.fst = .ok general ∧
        (Viewport.Crosses projection ⟨3, -1⟩ 2 source target .origin →
          (calls.foldl .after v).convert ⟨3, -1⟩ 2 source target .origin = .zero) ∧
        (¬Viewport.Crosses projection ⟨3, -1⟩ 2 source target .origin →
          (calls.foldl .after v).convert ⟨3, -1⟩ 2 source target .origin = general) := by
  intro projection config moved calls requests source target
  have builtViewports : ∃ v, ViewportEngine.build projection 8 4 0 = .ok v := ⟨_, rfl⟩
  have built : ∃ e, Engine.build projection 16 8 config .initial = .ok e := ⟨_, rfl⟩
  obtain ⟨v, builtViewports⟩ := builtViewports
  obtain ⟨e, built⟩ := built
  exact ⟨v, e, builtViewports, built, vector_eq_zero_or_vector builtViewports built rfl rfl calls requests ⟨3, -1⟩ 2
    .origin .origin .origin .global .global⟩

end Agreement

end SphereMotion
