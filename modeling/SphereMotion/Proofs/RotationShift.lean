import Mathlib
import SphereMotion.Proofs.ProperRotations
import SphereMotion.Proofs.TangentShift

namespace SphereMotion

open Scalar
open Exact (real)

namespace Triad

variable (t : Triad)

theorem turn_ahead : t.turn ⟨0, 0, 1⟩ = t.third := by
  simp [turn]

theorem turnBack_third : t.turnBack t.third = ⟨0, 0, 1⟩ := by
  rw [← turn_ahead, turnBack_turn]

end Triad

/-- The third axis is the direction of the block center. -/
theorem TangentFrame.normal_eq {p : Projection Exact} {center : Vec2 Exact} {t : Triad}
    (axes : (ofCenter p center).basis = t.matrix) : p.unproject center = t.third.exact :=
  Vec3.ext (congrArg (·.row₁.z) axes) (congrArg (·.row₂.z) axes) (congrArg (·.row₃.z) axes)

namespace Rotational

theorem movePoint_eq {α : Type} [Scalar α] [LawfulSub α] (m : Rotational α) {motion : Vec2 α}
    (moves : motion.isZero = false) (position center : Vec2 α) :
    (MotionModel.rotational m).movePoint position motion center =
      m.projection.project ((m.rotation motion center).apply (m.projection.unproject position)) := by
  refine MotionModel.movePoint_eq_project (f := (m.rotation motion center).apply) (fun g => ?_) position
  rw [MotionModel.move, move, moves, if_neg Bool.false_ne_true]

section Axes

variable {m : Rotational Exact} {t : Triad} {a : ℝ} {center : Vec2 Exact}
  (axes : (TangentFrame.ofCenter m.projection center).basis = t.matrix)
  (resolution : m.projection.angleResolution = real a) (motion : Vec2 ℝ)
include axes resolution

theorem rotation_exact :
    m.rotation motion.exact center =
      .exact (t.columns * (Mat3.about ⟨0, 1, 0⟩ (motion.scaled a).x * Mat3.about ⟨1, 0, 0⟩ (-(motion.scaled a).y)) *
        t.columns.transpose) := by
  have yaw : motion.exact.x * real a = real (motion.scaled a).x := congrArg real (mul_comm _ _)
  have pitch : -(motion.exact.y * real a) = real (-(motion.scaled a).y) :=
    congrArg (fun β : ℝ => real (-β)) (mul_comm _ _)
  have second : (.unitY : Vec3 Exact) = (⟨0, 1, 0⟩ : Vec3 ℝ).exact := by simp [Vec3.unitY, Vec3.exact]
  have first : (.unitX : Vec3 Exact) = (⟨1, 0, 0⟩ : Vec3 ℝ).exact := by simp [Vec3.unitX, Vec3.exact]
  rw [rotation]
  simp only [axes, resolution, yaw, pitch, second, first, Mat3.ofAxisAngle_exact, Triad.matrix_eq,
    Mat3.exact_transpose, Mat3.exact_mul]

theorem proper_rotation : (m.rotation motion.exact center).Proper := by
  have turn := Mat3.about_mem (u := ⟨0, 1, 0⟩) (by simp [Vec3.inner]) (motion.scaled a).x
  have turn' := Mat3.about_mem (u := ⟨1, 0, 0⟩) (by simp [Vec3.inner]) (-(motion.scaled a).y)
  rw [rotation_exact axes resolution]
  exact Mat3.proper_exact (Mat3.conjugate_mem t.columns_mem (mul_mem turn turn'))

/-- The block center goes to the azimuth and the elevation of the motion. -/
theorem rotation_apply_third :
    (m.rotation motion.exact center).apply t.third.exact = (t.turn (.heading (motion.scaled a))).exact := by
  rw [rotation_exact axes resolution, Mat3.apply_exact_mul, ← Mat3.exact_transpose, ← Triad.matrix_eq,
    Triad.transpose_apply, Triad.turnBack_third, Mat3.apply_exact_mul, Vec3.turned_ahead, ← Triad.matrix_eq,
    Triad.matrix_apply]

theorem rotation_apply_of_zero (v : Vec3 ℝ) : (m.rotation (0 : Vec2 ℝ).exact center).apply v.exact = v.exact := by
  have still : Mat3.about ⟨0, 1, 0⟩ ((0 : Vec2 ℝ).scaled a).x * Mat3.about ⟨1, 0, 0⟩ (-((0 : Vec2 ℝ).scaled a).y) =
      1 := by
    have zero : (0 : Vec2 ℝ).scaled a = ⟨0, 0⟩ := Vec2.scaled_zero a
    rw [zero, neg_zero, Mat3.about_zero, Mat3.about_zero, one_mul]
  rw [rotation_exact axes resolution, still, mul_one, Mat3.apply_exact_mul, ← Mat3.exact_transpose,
    ← Triad.matrix_eq, Triad.transpose_apply, Triad.matrix_apply, Triad.turn_turnBack]

end Axes

end Rotational

namespace ClosedForm

variable (c : ClosedForm) {position shifted : Vec2 ℝ} {center : Vec2 Exact} {d e : Vec3 ℝ} {t : Triad}

/-- Where the first grid has two points that are seen, the second has points that are as far apart on the sphere. -/
def Congruent (g h : Grid (Vec2 Exact)) : Prop :=
  ∀ (i j : Nat) (p q : Vec2 ℝ), g.get? i = some p.exact → g.get? j = some q.exact → c.Sees p → c.Sees q →
    ∃ p' q' : Vec2 ℝ, h.get? i = some p'.exact ∧ h.get? j = some q'.exact ∧ c.Sees p' ∧ c.Sees q' ∧
      (c.projection.unproject p'.exact).dot (c.projection.unproject q'.exact) =
        (c.projection.unproject p.exact).dot (c.projection.unproject q.exact)

variable {c}

theorem sees_of_direction (direction : c.projection.unproject position.exact = d.exact) : c.Sees position := by
  by_contra blind
  exact not_exists_direction blind ⟨d, direction⟩

/-- Only a direction straight ahead is no shift from the block center. -/
theorem shift_from_center_eq_zero_iff {a : ℝ} (nonzero : a ≠ 0) (unit : e.length = 1) :
    (t.turnBack e).bearings.scaled a⁻¹ = 0 ↔ t.third = e := by
  constructor
  · intro zero
    have ahead : (t.turnBack e).bearings = 0 := by
      rw [← Vec2.scaled_inv nonzero (t.turnBack e).bearings, zero, Vec2.scaled_zero]
    have back := Vec3.heading_bearings ((t.length_turnBack e).trans unit)
    rw [ahead, Vec3.heading_zero] at back
    rw [← t.turn_ahead, back, t.turn_turnBack]
  · rintro rfl
    rw [t.turnBack_third, Vec3.bearings_ahead, Vec2.scaled_zero]

section Axes

variable {a : ℝ} (axes : (TangentFrame.ofCenter c.projection center).basis = t.matrix)
  (resolution : c.projection.angleResolution = real a)
include axes resolution

/-- A point goes to a point in its rotated direction. -/
theorem exists_rotated (sees : c.Sees position) (motion : Vec2 ℝ) :
    ∃ moved : Vec2 ℝ,
      (MotionModel.rotational ⟨c.projection⟩).movePoint position.exact motion.exact center = moved.exact ∧
        c.Sees moved ∧
        c.projection.unproject moved.exact =
          ((Rotational.mk c.projection).rotation motion.exact center).apply
            (c.projection.unproject position.exact) := by
  obtain ⟨d, direction, unit⟩ := exists_direction sees
  by_cases still : motion = 0
  -- a point that stays is not the image of its direction unless it returns, but the rotation is the identity
  · refine ⟨position, MotionModel.movePoint_of_isZero _ (Vec2.isZero_exact.mpr still) _ _, sees, ?_⟩
    rw [still, direction, Rotational.rotation_apply_of_zero (m := ⟨c.projection⟩) axes resolution]
  · obtain ⟨r, turns⟩ :=
      (Rotational.proper_rotation (m := ⟨c.projection⟩) axes resolution motion).orthogonal.exists_triad
    have unit' := (r.length_turn d).trans unit
    obtain ⟨moved, image, covers, direction'⟩ := c.exists_image (Vec3.ne_zero_of_length unit')
    rw [Rotational.movePoint_eq _ (Vec2.isZero_of_ne still), direction, turns, Triad.matrix_apply]
    exact ⟨moved, image, covers.sees, direction'.trans (congrArg Vec3.exact (Vec3.normalized_of_length unit'))⟩

theorem congruent_move (g : Grid (Vec2 Exact)) (motion : Vec2 ℝ) :
    c.Congruent g ((MotionModel.rotational ⟨c.projection⟩).move g motion.exact center) := by
  intro i j p q atP atQ sees sees'
  obtain ⟨p', lands, sees'', direction⟩ := exists_rotated axes resolution sees motion
  obtain ⟨q', lands', sees''', direction'⟩ := exists_rotated axes resolution sees' motion
  obtain ⟨d, before, -⟩ := exists_direction sees
  obtain ⟨e, before', -⟩ := exists_direction sees'
  obtain ⟨r, turns⟩ :=
    (Rotational.proper_rotation (m := ⟨c.projection⟩) axes resolution motion).orthogonal.exists_triad
  refine ⟨p', q', ?_, ?_, sees'', sees''', ?_⟩
  · rw [MotionModel.move_eq_map, Grid.get?_map, atP, Option.map_some, lands]
  · rw [MotionModel.move_eq_map, Grid.get?_map, atQ, Option.map_some, lands']
  · rw [direction, direction', before, before', turns, Triad.matrix_apply, Triad.matrix_apply, Vec3.exact_dot,
      Triad.inner_turn_turn, Vec3.exact_dot]

theorem vectorFor_rotational (nonzero : a ≠ 0) (atCenter : c.projection.unproject center = t.third.exact)
    (atShifted : c.projection.unproject shifted.exact = e.exact) :
    (Rotational.mk c.projection).vectorFor center shifted.exact center =
      ((t.turnBack e).bearings.scaled a⁻¹).exact := by
  simp only [Rotational.vectorFor, atCenter, atShifted, TangentFrame.toLocal_exact axes,
    Vec3.azimuthElevation_exact, Triad.turnBack_third, Vec3.bearings_ahead, resolution, Vec2.exact_sub, sub_zero,
    Vec2.exact_unscale nonzero]

end Axes

/-- The vector for a shift from the block center leads to the shifted point, but a zero one leads nowhere. -/
theorem movePoint_rotational_shift {a : ℝ} {center : Vec2 ℝ}
    (axes : (TangentFrame.ofCenter c.projection center.exact).basis = t.matrix)
    (resolution : c.projection.angleResolution = real a) (nonzero : a ≠ 0)
    (atCenter : c.projection.unproject center.exact = t.third.exact)
    (atShifted : c.projection.unproject shifted.exact = e.exact) (unit : e.length = 1)
    (returns : c.Returns shifted) :
    (MotionModel.rotational ⟨c.projection⟩).movePoint center.exact ((t.turnBack e).bearings.scaled a⁻¹).exact
      center.exact =
        shifted.exact ↔
      center = shifted ∨ c.projection.unproject center.exact ≠ c.projection.unproject shifted.exact := by
  rw [atCenter, atShifted, Ne, Vec3.exact_inj]
  refine MotionModel.movePoint_shift_iff (shift_from_center_eq_zero_iff nonzero unit) fun moves => ?_
  rw [Rotational.movePoint_eq _ (Vec2.isZero_of_ne moves), atCenter,
    Rotational.rotation_apply_third (m := ⟨c.projection⟩) axes resolution, Vec2.scaled_inv nonzero,
    Vec3.heading_bearings ((t.length_turnBack e).trans unit), t.turn_turnBack, ← atShifted, returns]

/-- The sphere is rotated as a whole, and the block center goes to the azimuth and the elevation of the
motion. These are found again in the moved center, up to half a turn to the sides and less than a quarter turn
up and down. The vector for a shift of the center leads to the shifted point. It is zero, and leads nowhere,
for another point in the direction of the center. -/
theorem rotational_inverse_at_center (c : ClosedForm) {center : Vec2 ℝ}
    (rigid : (TangentFrame.ofCenter c.projection center.exact).basis.Orthogonal) :
    let model : MotionModel Exact := .rotational ⟨c.projection⟩
    let frame := TangentFrame.ofCenter c.projection center.exact
    ∃ f : ℝ, 0 < f ∧ c.projection.focalLength = real f ∧
      (∀ motion : Vec2 ℝ,
        let rotation := (Rotational.mk c.projection).rotation motion.exact center.exact
        let angles : Vec2 ℝ := ⟨motion.x / f, motion.y / f⟩
        rotation.Proper ∧
        (∀ position : Vec2 ℝ, c.Sees position →
          ∃ moved : Vec2 ℝ, model.movePoint position.exact motion.exact center.exact = moved.exact ∧ c.Sees moved ∧
            c.projection.unproject moved.exact = rotation.apply (c.projection.unproject position.exact)) ∧
        (∀ g, c.Congruent g (model.move g motion.exact center.exact)) ∧
        frame.toLocal (rotation.apply (c.projection.unproject center.exact)) = (Vec3.heading angles).exact ∧
        (angles.x ∈ Set.Ioc (-Real.pi) Real.pi → |angles.y| < Real.pi / 2 →
          ∃ moved : Vec2 ℝ, model.movePoint center.exact motion.exact center.exact = moved.exact ∧
            model.vectorFor center.exact moved.exact center.exact = motion.exact)) ∧
      ∀ shifted : Vec2 ℝ, c.Returns shifted →
        ∃ vector : Vec2 ℝ, model.vectorFor center.exact shifted.exact center.exact = vector.exact ∧
          (vector = 0 ↔ c.projection.unproject center.exact = c.projection.unproject shifted.exact) ∧
          (model.movePoint center.exact vector.exact center.exact = shifted.exact ↔
            center = shifted ∨ c.projection.unproject center.exact ≠ c.projection.unproject shifted.exact) := by
  intro model frame
  obtain ⟨t, axes⟩ := rigid.exists_triad
  obtain ⟨f, positive, focal, resolution⟩ := c.exists_focalLength
  have nonzero : f⁻¹ ≠ 0 := (inv_pos.mpr positive).ne'
  have atCenter : c.projection.unproject center.exact = t.third.exact := TangentFrame.normal_eq axes
  refine ⟨f, positive, focal, fun motion => ?_, fun shifted returns => ?_⟩
  · intro rotation angles
    have scaled : motion.scaled f⁻¹ = angles := Vec2.ext (inv_mul_eq_div _ _) (inv_mul_eq_div _ _)
    have turned : rotation.apply (c.projection.unproject center.exact) = (t.turn (.heading angles)).exact := by
      rw [atCenter, ← scaled]
      exact Rotational.rotation_apply_third axes resolution motion
    refine ⟨Rotational.proper_rotation axes resolution motion,
      fun position sees => exists_rotated axes resolution sees motion,
      fun g => congruent_move axes resolution g motion, ?_, fun azimuth elevation => ?_⟩
    · rw [turned, TangentFrame.toLocal_exact axes, t.turnBack_turn]
    · obtain ⟨moved, lands, -, direction⟩ := exists_rotated axes resolution (sees_of_direction atCenter) motion
      refine ⟨moved, lands,
        (vectorFor_rotational axes resolution nonzero atCenter (direction.trans turned)).trans ?_⟩
      rw [t.turnBack_turn, Vec3.bearings_heading azimuth elevation, ← scaled, Vec2.inv_scaled nonzero]
  · obtain ⟨e, atShifted, unit⟩ := exists_direction returns.sees
    refine ⟨_, vectorFor_rotational axes resolution nonzero atCenter atShifted, ?_,
      movePoint_rotational_shift axes resolution nonzero atCenter atShifted unit returns⟩
    rw [atCenter, atShifted, Vec3.exact_inj, shift_from_center_eq_zero_iff nonzero unit]

/-- A block center that goes down to the left, and a shift of it straight down. -/
theorem rotational_inverse_of_corner :
    let c : ClosedForm := .panorama 4 4 0 (by norm_num) (by norm_num)
    let model : MotionModel Exact := .rotational ⟨c.projection⟩
    let center : Vec2 ℝ := ⟨0, 1⟩
    let frame := TangentFrame.ofCenter c.projection center.exact
    let motion : Vec2 ℝ := ⟨-1, 1 / 2⟩
    let rotation := (Rotational.mk c.projection).rotation motion.exact center.exact
    let shifted : Vec2 ℝ := ⟨0, 2⟩
    frame.basis.Orthogonal ∧ rotation.Proper ∧ (∀ g, c.Congruent g (model.move g motion.exact center.exact)) ∧
      frame.toLocal (rotation.apply (c.projection.unproject center.exact)) =
        (Vec3.heading ⟨-(Real.pi / 2), Real.pi / 4⟩).exact ∧
      (∃ moved : Vec2 ℝ, model.movePoint center.exact motion.exact center.exact = moved.exact ∧
        model.vectorFor center.exact moved.exact center.exact = motion.exact) ∧
      c.Returns shifted ∧
      model.movePoint center.exact (model.vectorFor center.exact shifted.exact center.exact) center.exact =
        shifted.exact := by
  intro c model center frame motion rotation shifted
  have rigid : frame.basis.Orthogonal := rigid_corner _ _
  have returns : c.Returns center := (Inside.panorama (by norm_num) (by norm_num)).returns
  have returns' : c.Returns shifted := (Inside.panorama (by norm_num) (by norm_num)).returns
  have apart : center ≠ shifted := by
    rw [Ne, Vec2.ext_iff]
    norm_num [center, shifted]
  obtain ⟨f, -, focal, motions, shifts⟩ := rotational_inverse_at_center c rigid
  have whole : f = 4 / (2 * Real.pi) := by
    have value : c.projection.focalLength = real (4 / (2 * Real.pi)) := by
      simp only [c, projection, Projection.focalLength, Exact.two_eq, Exact.pi_eq, Exact.real_mul,
        Exact.real_div Real.two_pi_pos.ne']
    exact real.inj (focal.symm.trans value)
  have angles : (⟨motion.x / f, motion.y / f⟩ : Vec2 ℝ) = ⟨-(Real.pi / 2), Real.pi / 4⟩ := by
    have left : -1 / (4 / (2 * Real.pi)) = -(Real.pi / 2) := by
      field_simp
      norm_num
    have up : 1 / 2 / (4 / (2 * Real.pi)) = Real.pi / 4 := by field_simp
    rw [whole]
    exact Vec2.ext left up
  obtain ⟨proper, -, congruent, ahead, back⟩ := motions motion
  rw [angles] at ahead back
  obtain ⟨vector, value, -, lands⟩ := shifts shifted returns'
  refine ⟨rigid, proper, congruent, ahead, back ⟨?_, ?_⟩ ?_, returns', ?_⟩
  · linarith [Real.pi_pos]
  · linarith [Real.pi_pos]
  · rw [abs_of_pos (by linarith [Real.pi_pos])]
    linarith [Real.pi_pos]
  · rw [value]
    exact lands.mpr (.inr (returns.unproject_ne returns' apart))

section Widths

variable (wide : (0 : ℝ) < 8) (tall : (0 : ℝ) < 4)

/-- A block center four widths to the right of a point on the horizon, that point, and the
neighbours of the center. -/
theorem directions_widths : let c : ClosedForm := .panorama 8 4 0 wide tall
    c.projection.unproject (⟨33, 2⟩ : Vec2 ℝ).exact = (⟨√2 / 2, -(√2 / 2), 0⟩ : Vec3 ℝ).exact ∧
      c.projection.unproject (⟨1, 2⟩ : Vec2 ℝ).exact = (⟨√2 / 2, -(√2 / 2), 0⟩ : Vec3 ℝ).exact ∧
      c.projection.unproject (⟨34, 2⟩ : Vec2 ℝ).exact = (⟨0, -1, 0⟩ : Vec3 ℝ).exact ∧
      c.projection.unproject (⟨33, 3⟩ : Vec2 ℝ).exact = (⟨1 / 2, -(1 / 2), -(√2 / 2)⟩ : Vec3 ℝ).exact := by
  have turns (θ φ : ℝ) : Vec3.ofAngles θ (φ - (4 : ℕ) * (2 * Real.pi)) = Vec3.ofAngles θ φ := by
    simp only [Vec3.ofAngles, Real.cos_sub_nat_mul_two_pi, Real.sin_sub_nat_mul_two_pi]
  refine ⟨?_, ?_, ?_, ?_⟩
  · rw [unproject_of_angles (θ := Real.pi / 2) (φ := -(Real.pi / 4) - (4 : ℕ) * (2 * Real.pi)) (by ring)
      (by push_cast; ring), turns]
    simp [Vec3.ofAngles]
  · rw [unproject_of_angles (θ := Real.pi / 2) (φ := -(Real.pi / 4)) (by ring) (by ring)]
    simp [Vec3.ofAngles]
  · rw [unproject_of_angles (θ := Real.pi / 2) (φ := -(Real.pi / 2) - (4 : ℕ) * (2 * Real.pi)) (by ring)
      (by push_cast; ring), turns]
    simp [Vec3.ofAngles]
  · rw [unproject_of_angles (θ := Real.pi - Real.pi / 4) (φ := -(Real.pi / 4) - (4 : ℕ) * (2 * Real.pi)) (by ring)
      (by push_cast; ring), turns]
    simp [Vec3.ofAngles, root_mul_root]

theorem exists_triad_widths : let c : ClosedForm := .panorama 8 4 0 wide tall
    ∃ t : Triad, (TangentFrame.ofCenter c.projection (⟨33, 2⟩ : Vec2 ℝ).exact).basis = t.matrix ∧
      t.third = ⟨√2 / 2, -(√2 / 2), 0⟩ := by
  intro c
  obtain ⟨atCenter, -, atRight, atDown⟩ := directions_widths wide tall
  have root : √2 / 2 ≠ 0 := by simp
  have unit : (⟨√2 / 2, -(√2 / 2), 0⟩ : Vec3 ℝ).length = 1 := by
    rw [Vec3.length_eq_one_iff, Vec3.inner, neg_mul_neg, root_mul_root]
    norm_num
  have right : Vec3.across ⟨√2 / 2, -(√2 / 2), 0⟩ ⟨0, -1, 0⟩ = ⟨-(1 / 2), -(1 / 2), 0⟩ := by
    simp only [Vec3.across_eq, Vec3.inner]
    apply Vec3.ext <;> linarith [root_mul_root]
  have down : Vec3.across ⟨√2 / 2, -(√2 / 2), 0⟩ ⟨1 / 2, -(1 / 2), -(√2 / 2)⟩ = ⟨0, 0, -(√2 / 2)⟩ := by
    simp only [Vec3.across_eq, Vec3.inner]
    apply Vec3.ext <;> linarith [root_mul_root]
  have independent (k : ℝ) : Vec3.across ⟨√2 / 2, -(√2 / 2), 0⟩ ⟨1 / 2, -(1 / 2), -(√2 / 2)⟩ ≠
      (Vec3.across ⟨√2 / 2, -(√2 / 2), 0⟩ ⟨0, -1, 0⟩).scaled k := by
    rw [right, down, Vec3.scaled, Ne, Vec3.mk.injEq, mul_zero]
    exact fun same => root (neg_eq_zero.mp same.2.2)
  have next : (⟨33, 2⟩ : Vec2 ℝ) + ⟨1, 0⟩ = ⟨34, 2⟩ := Vec2.ext (show (33 : ℝ) + 1 = 34 by norm_num) (add_zero 2)
  have below : (⟨33, 2⟩ : Vec2 ℝ) + ⟨0, 1⟩ = ⟨33, 3⟩ := Vec2.ext (add_zero 33) two_add_one_eq_three
  obtain ⟨t, axes, third, -⟩ :=
    TangentFrame.exists_triad (p := c.projection) atCenter (next ▸ atRight) (below ▸ atDown) unit
    (by simp [right]) independent
  exact ⟨t, axes, third⟩

end Widths

/-- A block center four widths to the right of the shifted point, in the same direction. The vector is zero. -/
theorem rotational_inverse_widths_apart :
    let c : ClosedForm := .panorama 8 4 0 (by norm_num) (by norm_num)
    let model : MotionModel Exact := .rotational ⟨c.projection⟩
    let center : Vec2 ℝ := ⟨33, 2⟩
    let shifted : Vec2 ℝ := ⟨1, 2⟩
    (TangentFrame.ofCenter c.projection center.exact).basis.Orthogonal ∧ c.Covers shifted ∧ c.Returns shifted ∧
      model.movePoint center.exact (model.vectorFor center.exact shifted.exact center.exact) center.exact ≠
        shifted.exact := by
  intro c model center shifted
  obtain ⟨t, axes, third⟩ := exists_triad_widths (by norm_num) (by norm_num)
  obtain ⟨atCenter, atShifted, -⟩ := directions_widths (by norm_num) (by norm_num)
  rw [← third] at atCenter atShifted
  have unit : t.third.length = 1 := Vec3.length_eq_one_iff.mpr t.unit_third
  have returns : c.Returns shifted := (Inside.panorama (by norm_num) (by norm_num)).returns
  obtain ⟨a, positive, resolution⟩ := c.exists_resolution
  have value : model.vectorFor center.exact shifted.exact center.exact = _ :=
    vectorFor_rotational axes resolution positive.ne' atCenter atShifted
  refine ⟨axes ▸ t.orthogonal_matrix, .panorama (by norm_num) (by norm_num), returns, ?_⟩
  rw [value, Ne, movePoint_rotational_shift axes resolution positive.ne' atCenter atShifted unit returns,
    atCenter, atShifted]
  norm_num [center, shifted, Vec2.ext_iff]

end ClosedForm

end SphereMotion
