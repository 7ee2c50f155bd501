import Mathlib
import SphereMotion.Proofs.PlaneShift
import SphereMotion.Proofs.ReturningPoints
import SphereMotion.Proofs.TangentFrames

namespace SphereMotion

open Scalar
open Exact (real)

namespace Vec2

variable (p : Vec2 Exact)

theorem undefined_add : (⟨undefined, undefined⟩ : Vec2 Exact) + p = ⟨undefined, undefined⟩ :=
  Vec2.ext (Exact.undefined_add p.x) (Exact.undefined_add p.y)

theorem undefined_sub : (⟨undefined, undefined⟩ : Vec2 Exact) - p = ⟨undefined, undefined⟩ :=
  Vec2.ext (Exact.undefined_sub p.x) (Exact.undefined_sub p.y)

theorem sub_undefined : p - ⟨undefined, undefined⟩ = ⟨undefined, undefined⟩ :=
  Vec2.ext (Exact.sub_undefined p.x) (Exact.sub_undefined p.y)

theorem undefined_unscale (divisor : Exact) :
    (⟨undefined, undefined⟩ : Vec2 Exact).unscale divisor = ⟨undefined, undefined⟩ :=
  Vec2.ext (Exact.undefined_div divisor) (Exact.undefined_div divisor)

end Vec2

namespace Triad

variable (t : Triad)

/-- The direction that is seen at a point of the plane through the end of the third axis. -/
noncomputable def ray (p : Vec2 ℝ) : Vec3 ℝ := t.turn ⟨p.x, p.y, 1⟩

/-- The point of the plane at which a direction is seen. -/
noncomputable def tangents (v : Vec3 ℝ) : Vec2 ℝ :=
  ⟨t.first.inner v / t.third.inner v, t.second.inner v / t.third.inner v⟩

variable {t} {p : Vec2 ℝ} {v w : Vec3 ℝ}

theorem third_ray : t.third.inner (t.ray p) = 1 := congrArg Vec3.z (t.turnBack_turn ⟨p.x, p.y, 1⟩)

theorem ray_ne_zero : t.ray p ≠ ⟨0, 0, 0⟩ := by
  intro zero
  have third := t.third_ray (p := p)
  simp [zero, Vec3.inner] at third

theorem third_normalized_ray : 0 < t.third.inner (t.ray p).normalized := by
  have stretched := t.third_ray (p := p)
  rw [← Vec3.scaled_normalized ray_ne_zero, Vec3.inner_scaled] at stretched
  exact pos_of_mul_pos_right (stretched ▸ one_pos) (Vec3.length_pos ray_ne_zero).le

theorem tangents_scaled {k : ℝ} (positive : 0 < k) : t.tangents (v.scaled k) = t.tangents v := by
  simp only [tangents, Vec3.inner_scaled, mul_div_mul_left _ _ positive.ne']

theorem tangents_ray : t.tangents (t.ray p) = p := by
  have back := t.turnBack_turn ⟨p.x, p.y, 1⟩
  rw [tangents, third_ray, div_one, div_one]
  exact Vec2.ext (congrArg Vec3.x back) (congrArg Vec3.y back)

theorem tangents_normalized_ray : t.tangents (t.ray p).normalized = p := by
  rw [← tangents_scaled (Vec3.length_pos ray_ne_zero), Vec3.scaled_normalized ray_ne_zero, tangents_ray]

/-- A direction that faces the plane is found again at its point. -/
theorem normalized_ray_tangents (unit : v.length = 1) (facing : 0 < t.third.inner v) :
    (t.ray (t.tangents v)).normalized = v := by
  have onRay : t.ray (t.tangents v) = v.scaled (t.third.inner v)⁻¹ := by
    have local' : (⟨(t.tangents v).x, (t.tangents v).y, 1⟩ : Vec3 ℝ) = (t.turnBack v).scaled (t.third.inner v)⁻¹ :=
      Vec3.ext (div_eq_inv_mul _ _) (div_eq_inv_mul _ _) (inv_mul_cancel₀ facing.ne').symm
    rw [ray, local', ← turnBack_scaled, turn_turnBack]
  rw [onRay, Vec3.normalized_scaled (inv_pos.mpr facing), Vec3.normalized_of_length unit]

theorem eq_of_tangents_eq (unit : v.length = 1) (facing : 0 < t.third.inner v) (unit' : w.length = 1)
    (facing' : 0 < t.third.inner w) (same : t.tangents v = t.tangents w) : v = w := by
  rw [← normalized_ray_tangents unit facing, same, normalized_ray_tangents unit' facing']

end Triad

namespace TangentFrame

variable {f : TangentFrame Exact} {t : Triad}

theorem coordinates_of_not_faces {v : Vec3 Exact} (away : ¬f.Faces v) :
    Tangential.coordinates f v = ⟨undefined, undefined⟩ := by
  have depth : (f.toLocal v).z = f.normal.dot v := rfl
  rw [Faces, ← depth] at away
  rw [Tangential.coordinates]
  cases value : (f.toLocal v).z with
  | undefined => simp
  | real r =>
    rw [value, Exact.zero_lt_real, not_lt] at away
    exact if_pos (by rwa [Exact.zero_eq, Exact.real_le])

theorem coordinates_exact (axes : f.basis = t.matrix) {v : Vec3 ℝ} (facing : 0 < t.third.inner v) :
    Tangential.coordinates f v.exact = (t.tangents v).exact := by
  have front : ¬real (t.third.inner v) ≤ 0 := by rwa [Exact.zero_eq, Exact.real_le, not_le]
  rw [Tangential.coordinates, toLocal_exact axes]
  simp only [Triad.turnBack, Vec3.exact, if_neg front, Exact.real_div facing.ne', Triad.tangents, Vec2.exact]

end TangentFrame

namespace Tangential

theorem movePoint_eq {α : Type} [Scalar α] [LawfulSub α] (m : Tangential α) {motion : Vec2 α}
    (moves : motion.isZero = false) (position center : Vec2 α) :
    let frame := TangentFrame.ofCenter m.projection center
    let target := coordinates frame (m.projection.unproject position) + motion.scale m.projection.angleResolution
    (MotionModel.tangential m).movePoint position motion center =
      m.projection.project (frame.toWorld ⟨target.x, target.y, 1⟩) := by
  intro frame target
  let step := motion.scale m.projection.angleResolution
  refine MotionModel.movePoint_eq_project (f := fun v => frame.toWorld
    ⟨(coordinates frame v + step).x, (coordinates frame v + step).y, 1⟩) (fun g => ?_) position
  rw [MotionModel.move, move, moves, if_neg Bool.false_ne_true]

end Tangential

namespace ClosedForm

variable (c : ClosedForm) {position shifted : Vec2 ℝ} {center : Vec2 Exact} {p q : Vec3 ℝ} {t : Triad}

/-- Whether a point is seen in the hemisphere around the block center. -/
def Facing (center : Vec2 Exact) (point : Vec2 ℝ) : Prop :=
  (TangentFrame.ofCenter c.projection center).Faces (c.projection.unproject point.exact)

variable {c}

theorem Facing.sees (facing : c.Facing center position) : c.Sees position := by
  by_contra blind
  rw [Facing, unproject_of_not_sees blind, TangentFrame.Faces, Vec3.dot] at facing
  simp at facing

theorem facing_iff {n : Vec3 ℝ} (atCenter : c.projection.unproject center = n.exact)
    (atPosition : c.projection.unproject position.exact = p.exact) : c.Facing center position ↔ 0 < n.inner p := by
  have normal : (TangentFrame.ofCenter c.projection center).normal = n.exact := atCenter
  rw [Facing, atPosition, TangentFrame.Faces, normal, Vec3.exact_dot, Exact.zero_lt_real]

/-- A point that faces away has no image on the plane, and nothing comes of it. -/
theorem movePoint_tangential_of_not_facing {motion : Vec2 ℝ} (moves : motion ≠ 0)
    (away : ¬c.Facing center position) :
    (MotionModel.tangential ⟨c.projection⟩).movePoint position.exact motion.exact center =
      ⟨undefined, undefined⟩ := by
  have lost (m : Mat3 Exact) : m.apply ⟨undefined, undefined, 1⟩ = ⟨undefined, undefined, undefined⟩ := by
    simp [Mat3.apply, Vec3.dot]
  rw [Tangential.movePoint_eq _ (Vec2.isZero_of_ne moves), TangentFrame.coordinates_of_not_faces away,
    Vec2.undefined_add]
  exact (congrArg _ (lost _)).trans (Projection.project_undefined _)

theorem vectorFor_tangential_of_not_facing (away : ¬c.Facing center position ∨ ¬c.Facing center shifted) :
    (Tangential.mk c.projection).vectorFor position.exact shifted.exact center = ⟨undefined, undefined⟩ := by
  rw [Tangential.vectorFor]
  rcases away with before | after
  · simp only [TangentFrame.coordinates_of_not_faces before, Vec2.sub_undefined, Vec2.undefined_unscale]
  · simp only [TangentFrame.coordinates_of_not_faces after, Vec2.undefined_sub, Vec2.undefined_unscale]

/-- A point in the direction `d`, which faces the plane. -/
structure Faced (c : ClosedForm) (t : Triad) (p : Vec2 ℝ) (d : Vec3 ℝ) : Prop where
  direction : c.projection.unproject p.exact = d.exact
  unit : d.length = 1
  ahead : 0 < t.third.inner d

/-- Only a point in the same direction is no shift. -/
theorem Faced.shift_eq_zero_iff {a : ℝ} (positive : 0 < a) {d e : Vec3 ℝ} (faced : c.Faced t position d)
    (faced' : c.Faced t shifted e) :
    (t.tangents e - t.tangents d).scaled a⁻¹ = 0 ↔
      c.projection.unproject position.exact = c.projection.unproject shifted.exact := by
  rw [faced.direction, faced'.direction, Vec3.exact_inj]
  constructor
  · intro zero
    apply Triad.eq_of_tangents_eq faced.unit faced.ahead faced'.unit faced'.ahead
    rw [eq_comm, ← sub_eq_zero, ← Vec2.scaled_inv positive.ne' (_ - _), zero, Vec2.scaled_zero]
  · intro same
    rw [same, sub_self, Vec2.scaled_zero]

section Plane

variable {d e : Vec3 ℝ} (axes : (TangentFrame.ofCenter c.projection center).basis = t.matrix)
include axes

theorem exists_faced (facing : c.Facing center position) : ∃ d, c.Faced t position d := by
  obtain ⟨d, direction, unit⟩ := exists_direction facing.sees
  rw [Facing, direction, TangentFrame.faces_exact axes] at facing
  exact ⟨d, direction, unit, facing⟩

theorem Faced.facing (faced : c.Faced t position d) : c.Facing center position := by
  rw [Facing, faced.direction, TangentFrame.faces_exact axes]
  exact faced.ahead

variable {a : ℝ} (resolution : c.projection.angleResolution = real a)
include resolution

theorem movePoint_tangential (faced : c.Faced t position d) {motion : Vec2 ℝ} (moves : motion ≠ 0) :
    (MotionModel.tangential ⟨c.projection⟩).movePoint position.exact motion.exact center =
      c.projection.project (t.ray (t.tangents d + motion.scaled a)).exact := by
  rw [Tangential.movePoint_eq _ (Vec2.isZero_of_ne moves), faced.direction,
    TangentFrame.coordinates_exact axes faced.ahead, resolution, Vec2.exact_scale, Vec2.exact_add,
    TangentFrame.toWorld, axes, Exact.ofNat_eq, Nat.cast_one]
  rfl

theorem vectorFor_tangential (positive : 0 < a) (faced : c.Faced t position d) (faced' : c.Faced t shifted e) :
    (Tangential.mk c.projection).vectorFor position.exact shifted.exact center =
      ((t.tangents e - t.tangents d).scaled a⁻¹).exact := by
  simp only [Tangential.vectorFor, faced.direction, faced'.direction,
    TangentFrame.coordinates_exact axes faced.ahead, TangentFrame.coordinates_exact axes faced'.ahead, resolution,
    Vec2.exact_sub, Vec2.exact_unscale positive.ne']

theorem exists_moved_tangential (faced : c.Faced t position d) (motion : Vec2 ℝ) :
    ∃ moved e, (MotionModel.tangential ⟨c.projection⟩).movePoint position.exact motion.exact center =
      Vec2.exact moved ∧
      c.Faced t moved e ∧ t.tangents e = t.tangents d + motion.scaled a := by
  by_cases still : motion = 0
  · refine ⟨position, d, MotionModel.movePoint_of_isZero _ (Vec2.isZero_exact.mpr still) _ _, faced, ?_⟩
    rw [still, Vec2.scaled_zero, add_zero]
  · obtain ⟨moved, image, -, direction⟩ := c.exists_image (t.ray_ne_zero (p := t.tangents d + motion.scaled a))
    exact ⟨moved, _, (movePoint_tangential axes resolution faced still).trans image,
      ⟨direction, Vec3.length_normalized Triad.ray_ne_zero, Triad.third_normalized_ray⟩,
      Triad.tangents_normalized_ray⟩

/-- The vector for a shift leads to the shifted point, but a zero one leads nowhere. -/
theorem movePoint_tangential_shift (positive : 0 < a) (faced : c.Faced t position d) (faced' : c.Faced t shifted e)
    (returns : c.Returns shifted) :
    (MotionModel.tangential ⟨c.projection⟩).movePoint position.exact
      ((t.tangents e - t.tangents d).scaled a⁻¹).exact center = shifted.exact ↔
      position = shifted ∨ c.projection.unproject position.exact ≠ c.projection.unproject shifted.exact := by
  refine MotionModel.movePoint_shift_iff (faced.shift_eq_zero_iff positive faced') fun moves => ?_
  rw [movePoint_tangential axes resolution faced moves, Vec2.scaled_inv positive.ne', add_sub_cancel,
    ← c.project_normalized Triad.ray_ne_zero, Triad.normalized_ray_tangents faced'.unit faced'.ahead,
    ← faced'.direction, returns]

end Plane

/-- A point that faces the block center stays so, and the vector of a motion is found again in the moved
point. The vector for a shift leads to the shifted point. It is zero, and leads nowhere, for another point in
the direction of the position. A point that faces away is lost by any motion other than zero, and there is no
vector from it or to it. -/
theorem tangential_inverse (c : ClosedForm) {center : Vec2 ℝ}
    (rigid : (TangentFrame.ofCenter c.projection center.exact).basis.Orthogonal) (position : Vec2 ℝ) :
    let model : MotionModel Exact := .tangential ⟨c.projection⟩
    (c.Facing center.exact position →
      (∀ motion : Vec2 ℝ, ∃ moved : Vec2 ℝ, model.movePoint position.exact motion.exact center.exact = moved.exact ∧
        c.Facing center.exact moved ∧ model.vectorFor position.exact moved.exact center.exact = motion.exact) ∧
      ∀ shifted : Vec2 ℝ, c.Returns shifted → c.Facing center.exact shifted →
        ∃ vector : Vec2 ℝ, model.vectorFor position.exact shifted.exact center.exact = vector.exact ∧
          (vector = 0 ↔ c.projection.unproject position.exact = c.projection.unproject shifted.exact) ∧
          (model.movePoint position.exact vector.exact center.exact = shifted.exact ↔
            position = shifted ∨ c.projection.unproject position.exact ≠ c.projection.unproject shifted.exact)) ∧
    (¬c.Facing center.exact position → ∀ motion : Vec2 ℝ, motion ≠ 0 →
      model.movePoint position.exact motion.exact center.exact = ⟨undefined, undefined⟩) ∧
    ∀ shifted : Vec2 ℝ, ¬c.Facing center.exact position ∨ ¬c.Facing center.exact shifted →
      model.vectorFor position.exact shifted.exact center.exact = ⟨undefined, undefined⟩ := by
  intro model
  obtain ⟨t, axes⟩ := rigid.exists_triad
  obtain ⟨a, positive, resolution⟩ := c.exists_resolution
  refine ⟨fun facing => ?_, fun away motion moves => movePoint_tangential_of_not_facing moves away,
    fun shifted away => vectorFor_tangential_of_not_facing away⟩
  obtain ⟨d, faced⟩ := exists_faced axes facing
  refine ⟨fun motion => ?_, fun shifted returns facing' => ?_⟩
  · obtain ⟨moved, e, lands, faced', tangents⟩ := exists_moved_tangential axes resolution faced motion
    refine ⟨moved, lands, faced'.facing axes, (vectorFor_tangential axes resolution positive faced faced').trans ?_⟩
    rw [tangents, add_sub_cancel_left, Vec2.inv_scaled positive.ne']
  · obtain ⟨e, faced'⟩ := exists_faced axes facing'
    exact ⟨_, vectorFor_tangential axes resolution positive faced faced', faced.shift_eq_zero_iff positive faced',
      movePoint_tangential_shift axes resolution positive faced faced' returns⟩

section Corner

theorem root_mul_root : √2 / 2 * (√2 / 2) = 1 / 2 := by
  linarith [Real.mul_self_sqrt zero_le_two]

variable (wide tall : (0 : ℝ) < 4)

/-- A block center of a small panorama, its neighbours at the right and below, and the point behind it. -/
theorem directions_corner : let c : ClosedForm := .panorama 4 4 0 wide tall
    c.projection.unproject (⟨0, 1⟩ : Vec2 ℝ).exact = (⟨√2 / 2, 0, √2 / 2⟩ : Vec3 ℝ).exact ∧
      c.projection.unproject (⟨1, 1⟩ : Vec2 ℝ).exact = (⟨0, -(√2 / 2), √2 / 2⟩ : Vec3 ℝ).exact ∧
      c.projection.unproject (⟨0, 2⟩ : Vec2 ℝ).exact = (⟨1, 0, 0⟩ : Vec3 ℝ).exact ∧
      c.projection.unproject (⟨2, 3⟩ : Vec2 ℝ).exact = (⟨-(√2 / 2), 0, -(√2 / 2)⟩ : Vec3 ℝ).exact := by
  refine ⟨?_, ?_, ?_, ?_⟩
  · rw [unproject_of_angles (θ := Real.pi / 4) (φ := 0) (by ring) (by ring)]
    simp [Vec3.ofAngles]
  · rw [unproject_of_angles (θ := Real.pi / 4) (φ := -(Real.pi / 2)) (by ring) (by ring)]
    simp [Vec3.ofAngles]
  · rw [unproject_of_angles (θ := Real.pi / 2) (φ := 0) (by ring) (by ring)]
    simp [Vec3.ofAngles]
  · rw [unproject_of_angles (θ := Real.pi - Real.pi / 4) (φ := -Real.pi) (by ring) (by ring)]
    simp [Vec3.ofAngles]

theorem rigid_corner : let c : ClosedForm := .panorama 4 4 0 wide tall
    (TangentFrame.ofCenter c.projection (⟨0, 1⟩ : Vec2 ℝ).exact).basis.Orthogonal := by
  intro c
  obtain ⟨atCenter, atRight, atDown, -⟩ := directions_corner wide tall
  have root : √2 / 2 ≠ 0 := by simp
  have unit : (⟨√2 / 2, 0, √2 / 2⟩ : Vec3 ℝ).length = 1 := by
    rw [Vec3.length_eq_one_iff, Vec3.inner, root_mul_root]
    norm_num
  have right : Vec3.across ⟨√2 / 2, 0, √2 / 2⟩ ⟨0, -(√2 / 2), √2 / 2⟩ = ⟨-(√2 / 2 / 2), -(√2 / 2), √2 / 2 / 2⟩ := by
    simp only [Vec3.across_eq, Vec3.inner, root_mul_root]
    apply Vec3.ext <;> ring
  have down : Vec3.across ⟨√2 / 2, 0, √2 / 2⟩ ⟨1, 0, 0⟩ = ⟨1 / 2, 0, -(1 / 2)⟩ := by
    simp only [Vec3.across_eq, Vec3.inner, mul_one, mul_zero, add_zero, zero_sub, sub_zero, root_mul_root]
    norm_num
  have nonzero : Vec3.across ⟨√2 / 2, 0, √2 / 2⟩ ⟨0, -(√2 / 2), √2 / 2⟩ ≠ ⟨0, 0, 0⟩ := by simp [right]
  have independent (k : ℝ) : Vec3.across ⟨√2 / 2, 0, √2 / 2⟩ ⟨1, 0, 0⟩ ≠
      (Vec3.across ⟨√2 / 2, 0, √2 / 2⟩ ⟨0, -(√2 / 2), √2 / 2⟩).scaled k := by
    rw [right, down, Vec3.scaled, Ne, Vec3.mk.injEq]
    rintro ⟨forward, left, -⟩
    have zero : k = 0 := (mul_eq_zero.mp left.symm).resolve_right (neg_ne_zero.mpr root)
    norm_num [zero] at forward
  have next : (⟨0, 1⟩ : Vec2 ℝ) + ⟨1, 0⟩ = ⟨1, 1⟩ := Vec2.ext (zero_add 1) (add_zero 1)
  have below : (⟨0, 1⟩ : Vec2 ℝ) + ⟨0, 1⟩ = ⟨0, 2⟩ := Vec2.ext (add_zero 0) one_add_one_eq_two
  obtain ⟨t, axes, -⟩ :=
    TangentFrame.exists_triad (p := c.projection) atCenter (next ▸ atRight) (below ▸ atDown) unit
      nonzero independent
  rw [axes]
  exact t.orthogonal_matrix

end Corner

/-- A block center with a point in front of it and one behind it. -/
theorem tangential_inverse_of_corner :
    let c : ClosedForm := .panorama 4 4 0 (by norm_num) (by norm_num)
    let model : MotionModel Exact := .tangential ⟨c.projection⟩
    let center : Vec2 ℝ := ⟨0, 1⟩
    let position : Vec2 ℝ := ⟨1, 1⟩
    let shifted : Vec2 ℝ := ⟨0, 2⟩
    let behind : Vec2 ℝ := ⟨2, 3⟩
    let motion : Vec2 ℝ := ⟨3, -1⟩
    (TangentFrame.ofCenter c.projection center.exact).basis.Orthogonal ∧
      (c.Facing center.exact position ∧ ∃ moved : Vec2 ℝ,
        model.movePoint position.exact motion.exact center.exact = moved.exact ∧ c.Facing center.exact moved ∧
          model.vectorFor position.exact moved.exact center.exact = motion.exact) ∧
      (c.Returns shifted ∧ c.Facing center.exact shifted ∧
        model.movePoint position.exact (model.vectorFor position.exact shifted.exact center.exact) center.exact =
          shifted.exact) ∧
      ¬c.Facing center.exact behind ∧ motion ≠ 0 ∧
      model.movePoint behind.exact motion.exact center.exact = ⟨undefined, undefined⟩ ∧
      model.vectorFor position.exact behind.exact center.exact = ⟨undefined, undefined⟩ := by
  intro c model center position shifted behind motion
  have rigid : (TangentFrame.ofCenter c.projection center.exact).basis.Orthogonal := rigid_corner _ _
  obtain ⟨atCenter, atPosition, atShifted, atBehind⟩ := directions_corner (by norm_num) (by norm_num)
  have facing : c.Facing center.exact position :=
    (facing_iff atCenter atPosition).mpr (by norm_num [Vec3.inner, root_mul_root])
  have facing' : c.Facing center.exact shifted := (facing_iff atCenter atShifted).mpr (by simp [Vec3.inner])
  have away : ¬c.Facing center.exact behind :=
    mt (facing_iff atCenter atBehind).mp (by norm_num [Vec3.inner, root_mul_root])
  have returns : c.Returns position := (Inside.panorama (by norm_num) (by norm_num)).returns
  have returns' : c.Returns shifted := (Inside.panorama (by norm_num) (by norm_num)).returns
  have apart : position ≠ shifted := by
    rw [Ne, Vec2.ext_iff]
    norm_num [position, shifted]
  have moves : motion ≠ 0 := fun zero => three_ne_zero (congrArg Vec2.x zero)
  obtain ⟨front, -, lost⟩ := tangential_inverse c rigid position
  obtain ⟨-, gone, -⟩ := tangential_inverse c rigid behind
  obtain ⟨back, forth⟩ := front facing
  obtain ⟨vector, value, -, lands⟩ := forth shifted returns' facing'
  exact ⟨rigid, ⟨facing, back motion⟩,
    ⟨returns', facing', value ▸ lands.mpr (.inr (returns.unproject_ne returns' apart))⟩,
    away, moves, gone away motion moves, lost behind (.inr away)⟩

/-- Two points that show the upper pole. The vector from one to the other is zero. -/
theorem tangential_inverse_on_top_row :
    let c : ClosedForm := .panorama 4 4 0 (by norm_num) (by norm_num)
    let model : MotionModel Exact := .tangential ⟨c.projection⟩
    let center : Vec2 ℝ := ⟨0, 1⟩
    let position : Vec2 ℝ := ⟨3, 0⟩
    let shifted : Vec2 ℝ := ⟨0, 0⟩
    (TangentFrame.ofCenter c.projection center.exact).basis.Orthogonal ∧ c.Covers position ∧
      c.Facing center.exact position ∧
      c.Covers shifted ∧ c.Returns shifted ∧ c.Facing center.exact shifted ∧
      model.movePoint position.exact (model.vectorFor position.exact shifted.exact center.exact) center.exact ≠
        shifted.exact := by
  intro c model center position shifted
  have rigid : (TangentFrame.ofCenter c.projection center.exact).basis.Orthogonal := rigid_corner _ _
  obtain ⟨atCenter, -⟩ := directions_corner (by norm_num) (by norm_num)
  have facing {p : Vec2 ℝ} (top : p.y + 0 = 0) : c.Facing center.exact p :=
    (facing_iff atCenter (unproject_top top)).mpr (by simp [Vec3.inner])
  have facing' : c.Facing center.exact position := facing (add_zero 0)
  have facing'' : c.Facing center.exact shifted := facing (add_zero 0)
  obtain ⟨t, axes⟩ := rigid.exists_triad
  obtain ⟨a, positive, resolution⟩ := c.exists_resolution
  obtain ⟨d, faced⟩ := exists_faced axes facing'
  have faced' : c.Faced t shifted d :=
    ⟨(unproject_top (add_zero 0)).trans ((unproject_top (add_zero 0)).symm.trans faced.direction),
      faced.unit, faced.ahead⟩
  have still : model.vectorFor position.exact shifted.exact center.exact = (0 : Vec2 ℝ).exact := by
    refine (vectorFor_tangential axes resolution positive faced faced').trans ?_
    rw [sub_self, Vec2.scaled_zero]
  refine ⟨rigid, .panorama (by norm_num) (by norm_num), facing', .panorama (by norm_num) (by norm_num),
    returns_corner (add_zero 0) (add_zero 0), facing'', ?_⟩
  rw [still, MotionModel.movePoint_of_isZero _ (Vec2.isZero_exact.mpr rfl), Ne, Vec2.exact_inj]
  norm_num [position, shifted, Vec2.ext_iff]

end ClosedForm

end SphereMotion
