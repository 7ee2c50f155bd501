import Mathlib
import SphereMotion.Proofs.PlaneShift
import SphereMotion.Proofs.ReturningPoints

namespace SphereMotion

open Scalar
open Exact (real)

namespace Vec3

variable {q w : Vec3 ℝ}

theorem inner_self_lt_one (near : w.length < 1) : w.inner w < 1 := by
  rw [length_eq_sqrt_inner] at near
  exact (Real.sqrt_lt' zero_lt_one).mp near |>.trans_eq (one_pow 2)

theorem inner_scaled_add (q w : Vec3 ℝ) (l : ℝ) :
    (q.scaled l + w).inner (q.scaled l + w) = l * l * q.inner q + 2 * l * q.inner w + w.inner w := by
  have along : (q.scaled l + w).inner q = l * q.inner q + q.inner w := by
    rw [inner_comm, inner_add, inner_scaled]
  have across : (q.scaled l + w).inner w = l * q.inner w + w.inner w := by
    rw [inner_comm, inner_add, inner_scaled, w.inner_comm q]
  rw [inner_add, inner_scaled, along, across]
  ring

/-- From a point inside the sphere a ray leads to one point of the sphere. -/
theorem length_scaled_add_eq_one_iff (unit : q.length = 1) (near : w.length < 1) {l : ℝ} :
    0 < l ∧ (q.scaled l + w).length = 1 ↔ l = -q.inner w + √(q.inner w * q.inner w - w.inner w + 1) := by
  have inside := inner_self_lt_one near
  rw [length_eq_one_iff, inner_scaled_add, length_eq_one_iff.mp unit]
  set along := q.inner w
  set radicand := along * along - w.inner w + 1 with content
  have beyond : along * along < radicand := by linarith
  have positive : 0 ≤ radicand := (mul_self_nonneg along).trans beyond.le
  have longer : |along| < √radicand := Real.lt_sqrt_of_sq_lt (by rw [sq_abs, sq]; exact beyond)
  constructor
  · rintro ⟨forward, reaches⟩
    have square : (l + along) * (l + along) = radicand := by linarith
    -- The other root of the square lies behind the start of the ray.
    have ahead : 0 ≤ l + along := by
      by_contra behind
      nlinarith
    rw [← square, Real.sqrt_mul_self ahead]
    ring
  · rintro rfl
    have square := Real.mul_self_sqrt positive
    refine ⟨?_, ?_⟩
    · linarith [le_abs_self along]
    · linear_combination square

/-- Moved along a ray of the sphere, a point comes back to the sphere in its own place only from the
start of the ray. -/
theorem scaled_add_sub_eq_iff {p o : Vec3 ℝ} (unit : p.length = 1) (unit' : q.length = 1) (unit'' : o.length = 1)
    (near : (o - p).length < 1) {l : ℝ} (forward : 0 < l) (lands : (q.scaled l + (o - p)).length = 1) :
    q.scaled l + (o - p) = o ↔ p = q := by
  constructor
  · intro onCenter
    have onRay : q.scaled l = p := by rw [eq_sub_of_add_eq onCenter, sub_sub_cancel]
    have full : l = 1 := by
      have stretched := length_scaled forward.le q
      rwa [onRay, unit, unit', mul_one, eq_comm] at stretched
    rw [← onRay, full, scaled_one]
  · rintro rfl
    have onCenter : p.scaled 1 + (o - p) = o := by rw [scaled_one, add_sub_cancel]
    have reach := (length_scaled_add_eq_one_iff unit near).mp ⟨forward, lands⟩
    rw [← (length_scaled_add_eq_one_iff unit near).mp ⟨one_pos, onCenter.symm ▸ unit''⟩] at reach
    rwa [reach]

end Vec3

namespace SpatialTranslation

variable {α : Type} [Scalar α] (m : SpatialTranslation α) (position shifted center : Vec2 α)

/-- The center moved together with `position`, when `l` is the length at which the shifted point is met. -/
def movedCenter (l : α) : Vec3 α :=
  (m.projection.unproject shifted).scale l + (m.projection.unproject center - m.projection.unproject position)

/-- The number under the root in the length at which the shifted point is met. -/
def radicand : α :=
  let q := m.projection.unproject shifted
  let w := m.projection.unproject center - m.projection.unproject position
  q.dot w * q.dot w - w.normSquared + 1

/-- The length at which the shifted point is met. -/
def reach : α :=
  -(m.projection.unproject shifted).dot (m.projection.unproject center - m.projection.unproject position) +
    sqrt (m.radicand position shifted center)

theorem vectorFor_eq : m.vectorFor position shifted center =
    m.projection.project (m.movedCenter position shifted center (m.reach position shifted center)) - center := rfl

theorem movePoint_eq [LawfulSub α] {motion : Vec2 α} (moves : motion.isZero = false) :
    (MotionModel.spatial m).movePoint position motion center =
      m.projection.project (m.projection.unproject position + m.offset motion center) := by
  refine MotionModel.movePoint_eq_project (f := (· + m.offset motion center)) (fun g => ?_) position
  rw [MotionModel.move, move, moves, if_neg Bool.false_ne_true]

end SpatialTranslation

namespace ClosedForm

variable {c : ClosedForm} {position shifted center : Vec2 ℝ} {p q o : Vec3 ℝ}

section Directions

variable (atPosition : c.projection.unproject position.exact = p.exact)
  (atCenter : c.projection.unproject center.exact = o.exact)
include atPosition atCenter

theorem movedCenter_exact (atShifted : c.projection.unproject shifted.exact = q.exact) (l : ℝ) :
    (SpatialTranslation.mk c.projection).movedCenter position.exact shifted.exact center.exact (real l) =
      (q.scaled l + (o - p)).exact := by
  rw [SpatialTranslation.movedCenter, atPosition, atCenter, atShifted, Vec3.exact_scale, Vec3.exact_sub,
    Vec3.exact_add]

theorem radicand_exact (atShifted : c.projection.unproject shifted.exact = q.exact) :
    (SpatialTranslation.mk c.projection).radicand position.exact shifted.exact center.exact =
      real (q.inner (o - p) * q.inner (o - p) - (o - p).inner (o - p) + 1) := by
  simp only [SpatialTranslation.radicand, atPosition, atCenter, atShifted, Vec3.exact_sub, Vec3.normSquared,
    Vec3.exact_dot, Exact.ofNat_eq, Exact.real_mul, Exact.real_sub, Exact.real_add, Nat.cast_one]

/-- The length at which the shifted point is met, found by a point of the sphere that the moved center comes to. -/
theorem reach_exact (atShifted : c.projection.unproject shifted.exact = q.exact) (unit : q.length = 1)
    (near : (o - p).length < 1) {l : ℝ} (forward : 0 < l) (lands : (q.scaled l + (o - p)).length = 1) :
    (SpatialTranslation.mk c.projection).reach position.exact shifted.exact center.exact = real l := by
  have content := radicand_exact atPosition atCenter atShifted
  have inside := Vec3.inner_self_lt_one near
  rw [(Vec3.length_scaled_add_eq_one_iff unit near).mp ⟨forward, lands⟩, SpatialTranslation.reach, content,
    atPosition, atCenter, atShifted, Vec3.exact_sub, Vec3.exact_dot,
    Exact.sqrt_real (by nlinarith [mul_self_nonneg (q.inner (o - p))]), Exact.real_neg, Exact.real_add]

theorem vectorFor_spatial (atShifted : c.projection.unproject shifted.exact = q.exact) (unit : q.length = 1)
    (near : (o - p).length < 1) {l : ℝ} (forward : 0 < l) (lands : (q.scaled l + (o - p)).length = 1) :
    (SpatialTranslation.mk c.projection).vectorFor position.exact shifted.exact center.exact =
      c.projection.project (q.scaled l + (o - p)).exact - center.exact := by
  rw [SpatialTranslation.vectorFor_eq, reach_exact atPosition atCenter atShifted unit near forward lands,
    movedCenter_exact atPosition atCenter atShifted]

theorem movePoint_spatial {motion : Vec2 ℝ} (moves : motion ≠ 0) {t : Vec3 ℝ}
    (atTarget : c.projection.unproject (center + motion).exact = t.exact) :
    (MotionModel.spatial ⟨c.projection⟩).movePoint position.exact motion.exact center.exact =
      c.projection.project (p + (t - o)).exact := by
  rw [SpatialTranslation.movePoint_eq _ _ _ (Vec2.isZero_of_ne moves), SpatialTranslation.offset, Vec2.exact_add,
    atPosition, atCenter, atTarget, Vec3.exact_sub, Vec3.exact_add]

/-- The moved point lies in the direction to which the offset takes the point. -/
theorem exists_moved_spatial (unit : p.length = 1) (near : (o - p).length < 1) {motion : Vec2 ℝ} {t : Vec3 ℝ}
    (unit' : t.length = 1) (atTarget : c.projection.unproject (center + motion).exact = t.exact) :
    p + (t - o) ≠ ⟨0, 0, 0⟩ ∧ ∃ moved : Vec2 ℝ,
      (MotionModel.spatial ⟨c.projection⟩).movePoint position.exact motion.exact center.exact = moved.exact ∧
        c.projection.unproject moved.exact = (p + (t - o)).normalized.exact := by
  have nonzero : p + (t - o) ≠ ⟨0, 0, 0⟩ := by
    intro zero
    have away : t = o - p := by
      rw [← sub_eq_zero, ← sub_add, sub_add_eq_add_sub, add_comm t p, add_sub_assoc]
      exact zero
    exact near.ne (away ▸ unit')
  refine ⟨nonzero, ?_⟩
  by_cases still : motion = 0
  · have unmoved : t = o := by
      rw [still, add_zero, atCenter, Vec3.exact_inj] at atTarget
      exact atTarget.symm
    refine ⟨position, MotionModel.movePoint_of_isZero _ (Vec2.isZero_exact.mpr still) _ _, ?_⟩
    rw [atPosition, unmoved, sub_self, add_zero, Vec3.normalized_of_length unit]
  · obtain ⟨moved, image, -, direction⟩ := c.exists_image nonzero
    exact ⟨moved, (movePoint_spatial atPosition atCenter still atTarget).trans image, direction⟩

/-- The ray of the moved point meets the sphere where the moved center lies. -/
theorem vectorFor_movePoint_spatial (unit : p.length = 1) (near : (o - p).length < 1) {motion : Vec2 ℝ}
    (returns : c.Returns (center + motion)) :
    ∃ moved : Vec2 ℝ,
      (MotionModel.spatial ⟨c.projection⟩).movePoint position.exact motion.exact center.exact = moved.exact ∧
        (SpatialTranslation.mk c.projection).vectorFor position.exact moved.exact center.exact = motion.exact := by
  obtain ⟨t, atTarget, unitTarget⟩ := exists_direction returns.sees
  obtain ⟨nonzero, moved, lands, direction⟩ :=
    exists_moved_spatial atPosition atCenter unit near unitTarget atTarget
  have back : (p + (t - o)).normalized.scaled (p + (t - o)).length + (o - p) = t := by
    rw [Vec3.scaled_normalized nonzero]
    abel
  refine ⟨moved, lands, (vectorFor_spatial atPosition atCenter direction (Vec3.length_normalized nonzero) near
    (Vec3.length_pos nonzero) (back.symm ▸ unitTarget)).trans ?_⟩
  rw [back, ← atTarget, returns, Vec2.exact_sub, add_sub_cancel_left]

section Target

variable (atShifted : c.projection.unproject shifted.exact = q.exact) (unit : p.length = 1) (unit' : q.length = 1)
  (unit'' : o.length = 1) (near : (o - p).length < 1) {l : ℝ} (forward : 0 < l)
  (lands : (q.scaled l + (o - p)).length = 1) {target : Vec2 ℝ}
  (image : c.projection.project (q.scaled l + (o - p)).exact = target.exact)
  (atTarget : c.projection.unproject target.exact = (q.scaled l + (o - p)).exact)
include atShifted unit unit' unit'' near forward lands image atTarget

/-- The center is its own target only if the shifted point lies in the direction of the position. -/
theorem target_eq_center_iff : target = center ↔
    c.projection.unproject position.exact = c.projection.unproject shifted.exact ∧ c.Returns center := by
  rw [atPosition, atShifted, Vec3.exact_inj, ← Vec3.scaled_add_sub_eq_iff unit unit' unit'' near forward lands]
  constructor
  · rintro rfl
    rw [Returns, atCenter]
    rw [atCenter, Vec3.exact_inj] at atTarget
    exact ⟨atTarget.symm, by rw [atTarget, image]⟩
  · rintro ⟨onCenter, returns⟩
    rwa [onCenter, ← atCenter, returns, Vec2.exact_inj, eq_comm] at image

/-- The displacement of the center leads to the shifted point, but a point stays where the center does. -/
theorem movePoint_spatial_target (returns : c.Returns shifted) :
    (MotionModel.spatial ⟨c.projection⟩).movePoint position.exact (target - center).exact center.exact =
      shifted.exact ↔
      position = shifted ∨ c.projection.unproject position.exact ≠ c.projection.unproject shifted.exact ∨
        ¬c.Returns center := by
  have stays := target_eq_center_iff atPosition atCenter atShifted unit unit' unit'' near
    forward lands image atTarget
  rw [← sub_eq_zero] at stays
  rw [← not_and_or]
  refine MotionModel.movePoint_shift_iff stays fun moves => ?_
  -- The displacement of the center takes the position onto the ray of the shifted point.
  have back : p + (q.scaled l + (o - p) - o) = q.scaled l := by abel
  have atMoved : c.projection.unproject (center + (target - center)).exact = (q.scaled l + (o - p)).exact := by
    rw [add_sub_cancel, atTarget]
  rw [movePoint_spatial atPosition atCenter moves atMoved, back,
    c.project_scaled forward (Vec3.ne_zero_of_length unit'), ← atShifted, returns]

end Target

end Directions

/-- Near the block center the vector of a motion is found again in the moved point. Every shifted point is met
at one length only, and the vector for it leads there. It is zero, and leads nowhere, for another point in the
direction of the position, if the center is the image of its own direction. -/
theorem spatial_inverse (c : ClosedForm) {position center : Vec2 ℝ} (sees : c.Sees position) (sees' : c.Sees center)
    (near : (c.projection.unproject center.exact - c.projection.unproject position.exact).norm < 1) :
    let m : SpatialTranslation Exact := ⟨c.projection⟩
    let model : MotionModel Exact := .spatial m
    (∀ motion : Vec2 ℝ, c.Returns (center + motion) →
      ∃ moved : Vec2 ℝ, model.movePoint position.exact motion.exact center.exact = moved.exact ∧
        model.vectorFor position.exact moved.exact center.exact = motion.exact) ∧
    ∀ shifted : Vec2 ℝ, c.Returns shifted →
      let reach := m.reach position.exact shifted.exact center.exact
      let vector := model.vectorFor position.exact shifted.exact center.exact
      0 < m.radicand position.exact shifted.exact center.exact ∧ 0 < reach ∧
        (m.movedCenter position.exact shifted.exact center.exact reach).norm = 1 ∧
        (∀ l : ℝ, 0 < l → (m.movedCenter position.exact shifted.exact center.exact (real l)).norm = 1 →
          real l = reach) ∧
        vector = c.projection.project (m.movedCenter position.exact shifted.exact center.exact reach) -
          center.exact ∧
        (vector.isZero = true ↔
          c.projection.unproject position.exact = c.projection.unproject shifted.exact ∧ c.Returns center) ∧
        (model.movePoint position.exact vector center.exact = shifted.exact ↔
          position = shifted ∨ c.projection.unproject position.exact ≠ c.projection.unproject shifted.exact ∨
            ¬c.Returns center) := by
  intro m model
  obtain ⟨p, atPosition, unit⟩ := exists_direction sees
  obtain ⟨o, atCenter, unit'⟩ := exists_direction sees'
  rw [atCenter, atPosition, Vec3.exact_sub, Vec3.norm_exact, Exact.ofNat_eq, Exact.real_lt, Nat.cast_one] at near
  refine ⟨fun motion returns => ?_, fun shifted returns => ?_⟩
  · exact vectorFor_movePoint_spatial atPosition atCenter unit near returns
  · obtain ⟨q, atShifted, unitShifted⟩ := exists_direction returns.sees
    set l := -q.inner (o - p) + √(q.inner (o - p) * q.inner (o - p) - (o - p).inner (o - p) + 1) with length
    obtain ⟨forward, lands⟩ := (Vec3.length_scaled_add_eq_one_iff unitShifted near).mpr length
    have reach := reach_exact atPosition atCenter atShifted unitShifted near forward lands
    obtain ⟨target, image, -, direction⟩ := c.exists_image (Vec3.ne_zero_of_length lands)
    rw [Vec3.normalized_of_length lands] at direction
    have vector : model.vectorFor position.exact shifted.exact center.exact = (target - center).exact := by
      rw [← Vec2.exact_sub, ← image]
      exact vectorFor_spatial atPosition atCenter atShifted unitShifted near forward lands
    refine ⟨?_, ?_, ?_, fun other positive meets => ?_, rfl, ?_, ?_⟩
    · rw [radicand_exact atPosition atCenter atShifted, Exact.zero_lt_real]
      linarith [Vec3.inner_self_lt_one near, mul_self_nonneg (q.inner (o - p))]
    · rwa [reach, Exact.zero_lt_real]
    · rw [reach, movedCenter_exact atPosition atCenter atShifted, Vec3.norm_exact, lands, Exact.ofNat_eq,
        Nat.cast_one]
    · rw [movedCenter_exact atPosition atCenter atShifted, Vec3.norm_exact, Exact.ofNat_eq, Nat.cast_one] at meets
      rw [reach, length, (Vec3.length_scaled_add_eq_one_iff unitShifted near).mp ⟨positive, real.inj meets⟩]
    · rw [vector, Vec2.isZero_exact, sub_eq_zero]
      exact target_eq_center_iff atPosition atCenter atShifted unit unitShifted unit' near forward
        lands image direction
    · rw [vector]
      exact movePoint_spatial_target atPosition atCenter atShifted unit unitShifted unit' near forward
        lands image direction
        returns

/-- A block center an eighth turn away from the position. -/
theorem spatial_inverse_of_eighth_turn :
    let c : ClosedForm := .panorama 8 4 0 (by norm_num) (by norm_num)
    let m : SpatialTranslation Exact := ⟨c.projection⟩
    let model : MotionModel Exact := .spatial m
    let position : Vec2 ℝ := ⟨1, 2⟩
    let center : Vec2 ℝ := ⟨0, 2⟩
    let motion : Vec2 ℝ := ⟨3, 1⟩
    let shifted : Vec2 ℝ := ⟨6, 1⟩
    (c.Sees position ∧ c.Sees center ∧
        (c.projection.unproject center.exact - c.projection.unproject position.exact).norm < 1) ∧
      (c.Returns (center + motion) ∧
        ∃ moved : Vec2 ℝ, model.movePoint position.exact motion.exact center.exact = moved.exact ∧
          model.vectorFor position.exact moved.exact center.exact = motion.exact) ∧
      c.Returns shifted ∧ c.Returns position ∧ 0 < m.reach position.exact shifted.exact center.exact ∧
      model.movePoint position.exact (model.vectorFor position.exact shifted.exact center.exact) center.exact =
        shifted.exact := by
  intro c m model position center motion shifted
  obtain ⟨atPosition, -⟩ : c.Shows .frontBack position _ ∧ _ := shows_columns
  have atCenter : c.Shows .frontBack center ⟨Real.cos 0, Real.sin 0, 0⟩ :=
    shows_of_middle (by norm_num) (by norm_num) (by simp)
  have near : (c.projection.unproject center.exact - c.projection.unproject position.exact).norm < 1 := by
    rw [atCenter.direction, atPosition.direction, Vec3.exact_sub, Vec3.norm_exact, Exact.ofNat_eq, Exact.real_lt,
      Nat.cast_one, Vec3.length_eq_sqrt_inner, Real.sqrt_lt' one_pos]
    change (Real.cos 0 - √2 / 2) * (Real.cos 0 - √2 / 2) + (Real.sin 0 - -(√2 / 2)) * (Real.sin 0 - -(√2 / 2)) +
      (0 - 0) * (0 - 0) < 1 ^ 2
    rw [Real.cos_zero, Real.sin_zero]
    nlinarith [Real.mul_self_sqrt zero_le_two, Real.one_lt_sqrt_two]
  have inside {x y : ℝ} (column : x + 0 ∈ Set.Ico 0 8) (row : y + 0 ∈ Set.Ioo 0 4) : c.Returns ⟨x, y⟩ :=
    (Inside.panorama column row).returns
  have returns : c.Returns (center + motion) := inside (by norm_num [center, motion]) (by norm_num [center, motion])
  have returns' : c.Returns shifted := inside (by norm_num) (by norm_num)
  have returns'' : c.Returns position := inside (by norm_num) (by norm_num)
  have apart : position ≠ shifted := by
    rw [Ne, Vec2.ext_iff]
    norm_num [position, shifted]
  obtain ⟨back, forth⟩ := spatial_inverse c .panorama .panorama near
  obtain ⟨-, positive, -, -, -, -, lands⟩ := forth shifted returns'
  exact ⟨⟨.panorama, .panorama, near⟩, ⟨returns, back motion returns⟩, returns', returns'', positive,
    lands.mpr (.inr (.inl (returns''.unproject_ne returns' apart)))⟩

/-- Two points that show the upper pole. The vector from one to the other is zero. -/
theorem spatial_inverse_on_top_row :
    let c : ClosedForm := .panorama 8 4 0 (by norm_num) (by norm_num)
    let model : MotionModel Exact := .spatial ⟨c.projection⟩
    let position : Vec2 ℝ := ⟨3, 0⟩
    let center : Vec2 ℝ := ⟨0, 1⟩
    let shifted : Vec2 ℝ := ⟨0, 0⟩
    c.Covers position ∧ c.Covers center ∧
      (c.projection.unproject center.exact - c.projection.unproject position.exact).norm < 1 ∧ c.Returns shifted ∧
      model.movePoint position.exact (model.vectorFor position.exact shifted.exact center.exact) center.exact ≠
        shifted.exact := by
  intro c model position center shifted
  have atPosition : c.projection.unproject position.exact = _ := unproject_top (add_zero 0)
  have atShifted : c.projection.unproject shifted.exact = _ := unproject_top (add_zero 0)
  have atCenter : c.projection.unproject center.exact = (⟨√2 / 2, 0, √2 / 2⟩ : Vec3 ℝ).exact := by
    have polar : (center.y + 0) / 4 * Real.pi = Real.pi / 4 := by
      simp only [center]
      ring
    rw [unproject_of_angles (φ := 0) polar (by simp [center]), Vec3.ofAngles, Real.sin_pi_div_four,
      Real.cos_pi_div_four, Real.sin_zero, Real.cos_zero, mul_one, mul_zero]
  have near : ((⟨√2 / 2, 0, √2 / 2⟩ : Vec3 ℝ) - ⟨0, 0, 1⟩).length < 1 := by
    rw [Vec3.length_eq_sqrt_inner, Real.sqrt_lt' one_pos]
    change (√2 / 2 - 0) * (√2 / 2 - 0) + (0 - 0) * (0 - 0) + (√2 / 2 - 1) * (√2 / 2 - 1) < 1 ^ 2
    nlinarith [Real.mul_self_sqrt zero_le_two, Real.one_lt_sqrt_two]
  have unit : (⟨√2 / 2, 0, √2 / 2⟩ : Vec3 ℝ).length = 1 := by
    rw [Vec3.length_eq_one_iff, Vec3.inner]
    nlinarith [Real.mul_self_sqrt zero_le_two]
  have onCenter : (⟨0, 0, 1⟩ : Vec3 ℝ).scaled 1 + (⟨√2 / 2, 0, √2 / 2⟩ - ⟨0, 0, 1⟩) = ⟨√2 / 2, 0, √2 / 2⟩ := by
    rw [Vec3.scaled_one, add_sub_cancel]
  have returns : c.Returns center := (Inside.panorama (by norm_num) (by norm_num)).returns
  have still : model.vectorFor position.exact shifted.exact center.exact = (0 : Vec2 ℝ).exact := by
    refine (vectorFor_spatial atPosition atCenter atShifted (by simp [Vec3.length]) near one_pos
        (onCenter.symm ▸ unit)).trans ?_
    rw [onCenter, ← atCenter, returns, Vec2.exact_sub, sub_self]
  refine ⟨.panorama (by norm_num) (by norm_num), .panorama (by norm_num) (by norm_num), ?_,
    returns_corner (add_zero 0) (add_zero 0), ?_⟩
  · rwa [atCenter, atPosition, Vec3.exact_sub, Vec3.norm_exact, Exact.ofNat_eq, Exact.real_lt, Nat.cast_one]
  · rw [still, MotionModel.movePoint_of_isZero _ (Vec2.isZero_exact.mpr rfl), Ne, Vec2.exact_inj]
    norm_num [position, shifted, Vec2.ext_iff]

end ClosedForm

end SphereMotion
