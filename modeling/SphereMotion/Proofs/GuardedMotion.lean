import Mathlib
import SphereMotion.Proofs.GuardedLens
import SphereMotion.Proofs.Memoryless

namespace SphereMotion

open Scalar

variable {α : Type} [Scalar α] {p : Projection α}

def TangentFrame.ofCenter? (p : Projection α) (center : Vec2 α) : Option (TangentFrame α) := do
  let n ← p.unproject? center
  let dx := (← p.unproject? (center + ⟨1, 0⟩)) - n
  let dy := (← p.unproject? (center + ⟨0, 1⟩)) - n
  let right := (dx - n.scale (n.dot dx)).normalize
  let down := (dy - n.scale (n.dot dy) - right.scale (right.dot dy)).normalize
  return ⟨right, down, n⟩

theorem Projection.Total.ofCenter?_eq (total : p.Total) (center : Vec2 α) :
    TangentFrame.ofCenter? p center = some (.ofCenter p center) := by
  simp only [TangentFrame.ofCenter?, total.unproject, Option.bind_eq_bind, Option.bind_some]
  rfl

namespace SpatialTranslation

def move? (m : SpatialTranslation α) (g : Grid (Vec2 α)) (motion center : Vec2 α) : Option (Grid (Vec2 α)) :=
  if motion.isZero then some g else do
    let offset := (← m.projection.unproject? (center + motion)) - (← m.projection.unproject? center)
    m.projection.projectGrid? ((← m.projection.unprojectGrid? g).map (· + offset))

def vectorFor? (m : SpatialTranslation α) (position shifted center : Vec2 α) : Option (Vec2 α) := do
  let q ← m.projection.unproject? shifted
  let w := (← m.projection.unproject? center) - (← m.projection.unproject? position)
  let qw := q.dot w
  let l := -qw + sqrt (qw * qw - w.normSquared + 1)
  return (← m.projection.project? (q.scale l + w)) - center

end SpatialTranslation

namespace Tangential

def move? (m : Tangential α) (g : Grid (Vec2 α)) (motion center : Vec2 α) : Option (Grid (Vec2 α)) :=
  if motion.isZero then some g else do
    let frame ← TangentFrame.ofCenter? m.projection center
    let step := motion.scale m.projection.angleResolution
    m.projection.projectGrid? <| (← m.projection.unprojectGrid? g).map fun v =>
      let t := coordinates frame v + step
      frame.toWorld ⟨t.x, t.y, 1⟩

def vectorFor? (m : Tangential α) (position shifted center : Vec2 α) : Option (Vec2 α) := do
  let frame ← TangentFrame.ofCenter? m.projection center
  let before := coordinates frame (← m.projection.unproject? position)
  let after := coordinates frame (← m.projection.unproject? shifted)
  return (after - before).unscale m.projection.angleResolution

end Tangential

namespace Rotational

def rotation? (m : Rotational α) (motion center : Vec2 α) : Option (Mat3 α) := do
  let basis := (← TangentFrame.ofCenter? m.projection center).basis
  let yaw := motion.x * m.projection.angleResolution
  let pitch := motion.y * m.projection.angleResolution
  return (basis.mul ((Mat3.ofAxisAngle .unitY yaw).mul (Mat3.ofAxisAngle .unitX (-pitch)))).mul basis.transpose

def move? (m : Rotational α) (g : Grid (Vec2 α)) (motion center : Vec2 α) : Option (Grid (Vec2 α)) :=
  if motion.isZero then some g else do
    let rotation ← m.rotation? motion center
    m.projection.projectGrid? ((← m.projection.unprojectGrid? g).map rotation.apply)

def vectorFor? (m : Rotational α) (position shifted center : Vec2 α) : Option (Vec2 α) := do
  let frame ← TangentFrame.ofCenter? m.projection center
  let before := azimuthElevation (frame.toLocal (← m.projection.unproject? position))
  let after := azimuthElevation (frame.toLocal (← m.projection.unproject? shifted))
  return (after - before).unscale m.projection.angleResolution

end Rotational

namespace PlaneMotion

def moveOnPlane? (m : PlaneMotion α) (plane : Grid (PlanePoint α)) (motion : Vec2 α) : Option (Grid (Vec2 α)) :=
  m.projection.projectGrid? (m.ofPlane (plane.map (.translate motion)))

def move? (m : PlaneMotion α) (g : Grid (Vec2 α)) (motion : Vec2 α) : Option (Grid (Vec2 α)) :=
  if motion.isZero then some g else do
    m.moveOnPlane? (m.toPlane (← m.projection.unprojectGrid? g)) motion

def vectorFor? (m : PlaneMotion α) (position shifted : Vec2 α) : Option (Vec2 α) := do
  let before := m.toPlanePoint (← m.projection.unproject? position)
  let after := m.toPlanePoint (← m.projection.unproject? shifted)
  return (after.point - before.point).scale before.sign

end PlaneMotion

namespace Geodesic

def polarAngle? (m : Geodesic α) (point : Vec2 α) : Option α := do
  return (m.frame.spherical (← m.projection.unproject? point)).polar

def advance? (m : Geodesic α) (motion center : Vec2 α) : Option (Advance α) := do
  let delta := motion.x * m.projection.angleResolution
  match m.flavor with
  | .linear => return .linear delta
  | .modulated =>
    let start ← m.polarAngle? center
    return m.advanceBetween start (start + delta)

def moveRotated? (m : Geodesic α) (rotated : Grid (Spherical α)) (motion center : Vec2 α) :
    Option (Grid (Vec2 α)) := do
  let advance ← m.advance? motion center
  let turn := motion.y * m.projection.angleResolution
  m.projection.projectGrid? (rotated.map fun s => m.frame.direction (advance.apply s.polar) (s.azimuth + turn))

def move? (m : Geodesic α) (g : Grid (Vec2 α)) (motion center : Vec2 α) : Option (Grid (Vec2 α)) :=
  if motion.isZero then some g else do
    m.moveRotated? ((← m.projection.unprojectGrid? g).map m.frame.spherical) motion center

def vectorFor? (m : Geodesic α) (position shifted center : Vec2 α) : Option (Vec2 α) := do
  let before := m.frame.spherical (← m.projection.unproject? position)
  let after := m.frame.spherical (← m.projection.unproject? shifted)
  let turn := wrapAngle (after.azimuth - before.azimuth)
  let delta ← match m.flavor with
    | .linear => some (after.polar - before.polar)
    | .modulated => do
      let start ← m.polarAngle? center
      if m.nearPole start then some (after.polar - before.polar)
      else some ((m.advanceBetween before.polar after.polar).apply start - start)
  return Vec2.unscale ⟨delta, turn⟩ m.projection.angleResolution

theorem polarAngle?_eq {m : Geodesic α} (total : m.projection.Total) (point : Vec2 α) :
    m.polarAngle? point = some (m.polarAngle point) := by
  rw [polarAngle?, total.unproject]
  rfl

theorem moveRotated?_eq {m : Geodesic α} (total : m.projection.Total) (rotated : Grid (Spherical α))
    (motion center : Vec2 α) :
    m.moveRotated? rotated motion center = some (m.moveRotated rotated motion center) := by
  have advanced : m.advance? motion center = some (m.advance motion center) := by
    rw [advance?, advance]
    cases m.flavor with
    | linear => rfl
    | modulated =>
      simp only [polarAngle?_eq total]
      rfl
  simp only [moveRotated?, moveRotated, advanced, total.projectGrid, Option.bind_eq_bind, Option.bind_some]

end Geodesic

namespace MotionModel

def move? (model : MotionModel α) (g : Grid (Vec2 α)) (motion center : Vec2 α) : Option (Grid (Vec2 α)) :=
  match model with
  | translational => some (PixelTranslation.move g motion)
  | spatial m => m.move? g motion center
  | tangential m => m.move? g motion center
  | rotational m => m.move? g motion center
  | plane m => m.move? g motion
  | geodesic m => m.move? g motion center

def vectorFor? (model : MotionModel α) (position shifted center : Vec2 α) : Option (Vec2 α) :=
  match model with
  | translational => some (PixelTranslation.vectorFor position shifted)
  | spatial m => m.vectorFor? position shifted center
  | tangential m => m.vectorFor? position shifted center
  | rotational m => m.vectorFor? position shifted center
  | plane m => m.vectorFor? position shifted
  | geodesic m => m.vectorFor? position shifted center

/-- A model that reads no other projection. -/
def Reads (p : Projection α) : MotionModel α → Prop
  | translational => True
  | spatial m => m.projection = p
  | tangential m => m.projection = p
  | rotational m => m.projection = p
  | plane m => m.projection = p
  | geodesic m => m.projection = p

theorem Reads.move?_eq {model : MotionModel α} (reads : model.Reads p) (total : p.Total) (g : Grid (Vec2 α))
    (motion center : Vec2 α) : model.move? g motion center = some (model.move g motion center) := by
  cases model with
  | translational => rfl
  | spatial m =>
    subst reads
    rw [move?, move, SpatialTranslation.move?, SpatialTranslation.move, apply_ite some]
    simp only [total.unproject, total.unprojectGrid, total.projectGrid, Option.bind_eq_bind, Option.bind_some]
    rfl
  | tangential m =>
    subst reads
    rw [move?, move, Tangential.move?, Tangential.move, apply_ite some]
    simp only [total.ofCenter?_eq, total.unprojectGrid, total.projectGrid, Option.bind_eq_bind, Option.bind_some]
  | rotational m =>
    subst reads
    have rotated : m.rotation? motion center = some (m.rotation motion center) := by
      rw [Rotational.rotation?, total.ofCenter?_eq]
      rfl
    rw [move?, move, Rotational.move?, Rotational.move, apply_ite some]
    simp only [rotated, total.unprojectGrid, total.projectGrid, Option.bind_eq_bind, Option.bind_some]
  | plane m =>
    subst reads
    rw [move?, move, PlaneMotion.move?, PlaneMotion.move, apply_ite some]
    simp only [PlaneMotion.moveOnPlane?, PlaneMotion.moveOnPlane, total.unprojectGrid, total.projectGrid,
      Option.bind_eq_bind, Option.bind_some]
  | geodesic m =>
    subst reads
    rw [move?, move, Geodesic.move?, Geodesic.move, apply_ite some]
    simp only [Geodesic.moveRotated?_eq total, total.unprojectGrid, Option.bind_eq_bind, Option.bind_some]

theorem Reads.vectorFor?_eq {model : MotionModel α} (reads : model.Reads p) (total : p.Total)
    (position shifted center : Vec2 α) :
    model.vectorFor? position shifted center = some (model.vectorFor position shifted center) := by
  cases model with
  | translational => rfl
  | spatial m =>
    subst reads
    simp only [vectorFor?, SpatialTranslation.vectorFor?, total.unproject, total.project, Option.bind_eq_bind,
      Option.bind_some]
    rfl
  | tangential m =>
    subst reads
    simp only [vectorFor?, Tangential.vectorFor?, total.ofCenter?_eq, total.unproject, Option.bind_eq_bind,
      Option.bind_some]
    rfl
  | rotational m =>
    subst reads
    simp only [vectorFor?, Rotational.vectorFor?, total.ofCenter?_eq, total.unproject, Option.bind_eq_bind,
      Option.bind_some]
    rfl
  | plane m =>
    subst reads
    simp only [vectorFor?, PlaneMotion.vectorFor?, total.unproject, Option.bind_eq_bind, Option.bind_some]
    rfl
  | geodesic m =>
    subst reads
    simp only [vectorFor?, Geodesic.vectorFor?, vectorFor, Geodesic.vectorFor, total.unproject,
      Geodesic.polarAngle?_eq total, Option.bind_eq_bind, Option.bind_some]
    cases m.flavor with
    | linear => rfl
    | modulated => cases m.nearPole (m.polarAngle center) <;> rfl

theorem reads_motionModel (p : Projection α) (id : ModelId) (flavor : GeodesicFlavor) (epipole : Option (Vec3 α)) :
    (id.motionModel flavor p epipole).Reads p := by
  cases id <;> first | rfl | trivial

end MotionModel

namespace Slot

/-- As `moveCached`, by a model whose projection may refuse to tell. -/
def moveCached? (slot : Slot α) (window : Window) (samples : Grid (Vec2 α)) (motion center : Vec2 α) :
    Except Fault (Option (Grid (Vec2 α)) × Slot α) :=
  match slot with
  | plain m => .ok (m.move? samples motion center, slot)
  | plane m cache =>
    if motion.isZero then .ok (some samples, slot) else do
      let (points, cache) ← cache.fetch window
      .ok (m.moveOnPlane? points motion, plane m cache)
  | geodesic m cache =>
    if motion.isZero then .ok (some samples, slot) else do
      let (rotated, cache) ← cache.fetch window m.frame.epipole
      .ok (m.moveRotated? rotated motion center, geodesic m cache)

/-- A slot whose model reads its projection without being refused anything. -/
structure Told (slot : Slot α) : Prop where
  moveCached (window : Window) (samples : Grid (Vec2 α)) (motion center : Vec2 α) :
    slot.moveCached? window samples motion center =
      (slot.moveCached window samples motion center).map fun (targets, next) => (some targets, next)
  move (g : Grid (Vec2 α)) (motion center : Vec2 α) :
    slot.model.move? g motion center = some (slot.model.move g motion center)
  vectorFor (position shifted center : Vec2 α) :
    slot.model.vectorFor? position shifted center = some (slot.model.vectorFor position shifted center)

theorem told_of_reads {slot : Slot α} (reads : slot.model.Reads p) (total : p.Total) : slot.Told where
  moveCached window samples motion center := by
    cases slot with
    | plain m =>
      have moved : m.move? samples motion center = some (m.move samples motion center) :=
        MotionModel.Reads.move?_eq reads total samples motion center
      rw [moveCached?, moved]
      rfl
    | plane m cache =>
      subst reads
      rw [moveCached?, Slot.moveCached, PlaneMotion.moveCached]
      split
      · rfl
      · cases cache.fetch window with
        | error cause => rfl
        | ok fetched =>
          simp only [bind, Except.bind, PlaneMotion.moveOnPlane?, total.projectGrid]
          rfl
    | geodesic m cache =>
      subst reads
      rw [moveCached?, Slot.moveCached, Geodesic.moveCached]
      split
      · rfl
      · cases cache.fetch window m.frame.epipole with
        | error cause => rfl
        | ok fetched =>
          simp only [bind, Except.bind, Geodesic.moveRotated?_eq total]
          rfl
  move g motion center := reads.move?_eq total g motion center
  vectorFor position shifted center := reads.vectorFor?_eq total position shifted center

theorem reads_setEpipole {slot : Slot α} (reads : slot.model.Reads p) (epipole : Option (Vec3 α)) :
    (slot.setEpipole epipole).model.Reads p := by
  cases slot <;> cases epipole <;> exact reads

end Slot

end SphereMotion
