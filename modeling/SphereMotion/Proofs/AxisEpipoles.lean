import Mathlib
import SphereMotion.Proofs.EpipoleHistory
import SphereMotion.Proofs.History

namespace SphereMotion

open Scalar

variable {α : Type} [Scalar α]

namespace Plan

/-- A model that is active and has its epipole for a picture pair; with it the model stands for the
motion model `m`. -/
structure Serves (plan : Plan α) (id : ModelId) (pair : PicturePair) (m : MotionModel α) : Prop where
  active : plan.require id = .ok ()
  stands : (plan.epipoles.forModel id pair).map (plan.motionModel id) = .ok m

variable {plan : Plan α} {id : ModelId} {pair : PicturePair} {m : MotionModel α} {axis : Vec3 α}

theorem Serves.of_camera_pose (active : plan.config.active.contains .geodesicCameraPose = true)
    (resolves : plan.epipoles.find pair = .ok axis) :
    plan.Serves .geodesicCameraPose pair (.geodesic (.build plan.projection plan.config.flavor axis)) := by
  refine ⟨if_pos active, ?_⟩
  rw [EpipoleList.forModel, if_pos rfl, resolves]
  rfl

theorem Serves.of_fixedEpipole (active : plan.config.active.contains id = true)
    (bound : id.fixedEpipole? = some axis) (pair : PicturePair) :
    plan.Serves id pair (.geodesic (.build plan.projection plan.config.flavor axis)) := by
  refine ⟨if_pos active, ?_⟩
  cases id with
  | geodesicX | geodesicY | geodesicZ =>
    cases bound
    rfl
  | _ => cases bound

/-- Blocks are moved by the motion model alone. -/
theorem Serves.reproject (serves : plan.Serves id pair m) (moved : MovedBlock) :
    plan.reproject moved id pair =
      plan.picture.locate moved.block moved.component moved.chroma >>= plan.picture.moveBlock m moved := by
  obtain ⟨epipole, given, rfl⟩ := exists_of_map_eq_ok serves.stands
  rw [Plan.reproject, serves.active, given]
  rfl

section Conversions

variable {c : Conversion α}

theorem Serves.convert_source (serves : plan.Serves c.source c.sourcePair m) (differ : c.source ≠ c.target) :
    plan.convert c = do
      plan.require c.target
      let epipole ← plan.epipoles.forModel c.target c.targetPair
      return c.express m (plan.motionModel c.target epipole) := by
  obtain ⟨epipole, given, rfl⟩ := exists_of_map_eq_ok serves.stands
  rw [plan.convert_of_ne differ, serves.active, given]
  rfl

theorem Serves.convert_target (serves : plan.Serves c.target c.targetPair m) (differ : c.source ≠ c.target) :
    plan.convert c = do
      plan.require c.source
      let epipole ← plan.epipoles.forModel c.source c.sourcePair
      return c.express (plan.motionModel c.source epipole) m := by
  obtain ⟨epipole, given, rfl⟩ := exists_of_map_eq_ok serves.stands
  rw [plan.convert_of_ne differ, serves.active, given]
  rfl

end Conversions

end Plan

namespace Engine

/-- Two models, each for a picture pair of its own, that move every block alike, or are refused alike, and
from and to which every vector of a third model is converted alike. -/
structure Alike (e : Engine α) (id id' : ModelId) (pair pair' : PicturePair) : Prop where
  reproject (moved : MovedBlock) :
    (e.reproject moved id pair).map Prod.fst = (e.reproject moved id' pair').map Prod.fst
  convert_from (c : Conversion α) {third : ModelId} : third ≠ id → third ≠ id' →
    (e.convert { c with source := id, sourcePair := pair, target := third }).map Prod.fst =
      (e.convert { c with source := id', sourcePair := pair', target := third }).map Prod.fst
  convert_to (c : Conversion α) {third : ModelId} : third ≠ id → third ≠ id' →
    (e.convert { c with source := third, target := id, targetPair := pair }).map Prod.fst =
      (e.convert { c with source := third, target := id', targetPair := pair' }).map Prod.fst

variable [LawfulSame α]

/-- Two models that stand for the same motion model answer alike. -/
theorem Sound.alike_of_serves {e : Engine α} (sound : e.Sound) {id id' : ModelId} {pair pair' : PicturePair}
    {m : MotionModel α} (serves : e.plan.Serves id pair m) (serves' : e.plan.Serves id' pair' m) :
    e.Alike id id' pair pair' := by
  constructor
  case reproject =>
    intro moved
    rw [(sound.reproject ..).map_fst, (sound.reproject ..).map_fst, serves.reproject, serves'.reproject]
  case convert_from =>
    intro c third other other'
    rw [(sound.convert _).map_fst, (sound.convert _).map_fst,
      Plan.Serves.convert_source (c := { c with source := id, sourcePair := pair, target := third })
        serves other.symm,
      Plan.Serves.convert_source (c := { c with source := id', sourcePair := pair', target := third })
        serves' other'.symm]
    rfl
  case convert_to =>
    intro c third other other'
    rw [(sound.convert _).map_fst, (sound.convert _).map_fst,
      Plan.Serves.convert_target (c := { c with source := third, target := id, targetPair := pair }) serves other,
      Plan.Serves.convert_target (c := { c with source := third, target := id', targetPair := pair' })
        serves' other']
    rfl

/-- For a picture pair whose epipole is exactly an axis the camera-pose model answers as the model
that is bound to the axis, whatever epipoles the requests before have brought. The latter model does
not look at its own pair. -/
theorem camera_pose_alike_axis {projection : Projection α} {width height : Nat} {config : Config}
    {epipoles : EpipoleList} {e : Engine α} (built : build projection width height config epipoles = .ok e)
    (requests : List (Request α)) {id : ModelId} {axis : Vec3 α} (bound : id.fixedEpipole? = some axis)
    (activePose : (e.serveAll requests).isActive .geodesicCameraPose = true)
    (activeAxis : (e.serveAll requests).isActive id = true) {pair : PicturePair}
    (resolves : (e.serveAll requests).epipoles.find pair = .ok axis) (other : PicturePair) :
    (e.serveAll requests).Alike .geodesicCameraPose id pair other := by
  obtain ⟨-, -, sound, -⟩ := run_of_built built requests
  rw [isActive, sound.active] at activePose activeAxis
  exact sound.alike_of_serves (.of_camera_pose activePose resolves) (.of_fixedEpipole activeAxis bound other)

/-- A camera pose that was asked for with the forward axis and then given the axis to the left. -/
theorem camera_pose_alike_axis_of_epipole_change :
    let projection : Projection Double :=
      .panorama ⟨.ofBits 0x4030000000000000, .ofBits 0x4020000000000000, .ofBits 0⟩
    let moved : MovedBlock := ⟨⟨4, 0, 8, 4⟩, ⟨3, -1⟩, 2, .y, .yuv420⟩
    let pair : PicturePair := ⟨3, 1⟩
    let requests : List (Request Double) :=
      [.addEpipole .unitX .global true, .reproject moved .geodesicCameraPose pair, .addEpipole .unitY pair true,
        .reproject moved .geodesicY pair]
    ∃ e, build projection 16 8 { active := .everything } .initial = .ok e ∧
      ModelId.geodesicY.fixedEpipole? = some (.unitY : Vec3 Double) ∧
      (e.serveAll requests).isActive .geodesicCameraPose = true ∧ (e.serveAll requests).isActive .geodesicY = true ∧
      (e.serveAll requests).epipoles.find pair = .ok (.unitY : Vec3 Double) ∧
      (e.serveAll requests).Alike .geodesicCameraPose .geodesicY pair .global := by
  intro projection moved pair requests
  have built : ∃ e, build projection 16 8 { active := .everything } .initial = .ok e := ⟨_, rfl⟩
  obtain ⟨e, built⟩ := built
  obtain ⟨_, -, sound, plan⟩ := run_of_built built requests
  have active (id : ModelId) : (e.serveAll requests).isActive id = true := by
    rw [isActive, sound.active, show (e.serveAll requests).config = _ from congrArg Plan.config plan]
    cases id <;> rfl
  have resolves : (e.serveAll requests).epipoles.find pair = .ok (.unitY : Vec3 Double) := by
    have stored : (e.serveAll requests).epipoles = (EpipoleList.initial.add (.unitX : Vec3 Double) .global true).add
        (.unitY : Vec3 Double) pair true := congrArg Plan.epipoles plan
    rw [stored, EpipoleList.find_add_self]
    exact congrArg Except.ok (Vec3.eq_of_same (by decide +kernel))
  have bound : ModelId.geodesicY.fixedEpipole? = some (.unitY : Vec3 Double) := rfl
  exact ⟨e, built, bound, active _, active _, resolves,
    camera_pose_alike_axis built requests bound (active _) (active _) resolves .global⟩

end Engine

end SphereMotion
