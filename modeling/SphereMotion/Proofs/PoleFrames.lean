import Mathlib
import SphereMotion.Proofs.EpipoleAngles
import SphereMotion.Proofs.ExactPanorama
import SphereMotion.Proofs.ProperRotations
import SphereMotion.Proofs.ReturningPoints

namespace SphereMotion

open Scalar
open Exact (real)

namespace Vec3

/-- The cross product. -/
noncomputable def outer (v w : Vec3 ℝ) : Vec3 ℝ :=
  ⟨v.y * w.z - v.z * w.y, v.z * w.x - v.x * w.z, v.x * w.y - v.y * w.x⟩

theorem exact_cross (v w : Vec3 ℝ) : v.exact.cross w.exact = (v.outer w).exact := rfl

theorem inner_self_eq (v : Vec3 ℝ) : v.inner v = v.length * v.length := v.length_mul_length.symm

theorem outer_inner_left (v w : Vec3 ℝ) : (v.outer w).inner v = 0 := by
  simp only [inner, outer]
  ring

theorem scaled_inner (u v : Vec3 ℝ) (k : ℝ) : (u.scaled k).inner v = k * u.inner v := by
  rw [inner_comm, inner_scaled, inner_comm]

theorem scaled_outer (u v : Vec3 ℝ) (k : ℝ) : (u.scaled k).outer v = (u.outer v).scaled k := by
  apply Vec3.ext <;> simp only [outer, scaled] <;> ring

/-- Of the second vector, the product across keeps what is at a right angle to the first. -/
theorem outer_outer (v w : Vec3 ℝ) : (v.outer w).outer v = w.scaled (v.inner v) - v.scaled (v.inner w) := by
  apply Vec3.ext <;> change _ = (_ : ℝ) - _ <;> simp only [outer, scaled, inner] <;> ring

theorem inner_outer_self (v w : Vec3 ℝ) :
    (v.outer w).inner (v.outer w) = v.inner v * w.inner w - v.inner w * v.inner w := by
  simp only [inner, outer]
  ring

section Units

variable {v w : Vec3 ℝ} (unit : v.length = 1) (unit' : w.length = 1)
include unit unit'

theorem abs_inner_le : |v.inner w| ≤ 1 := by
  have square := inner_outer_self v w
  rw [inner_self_eq, inner_self_eq, inner_self_eq, unit, unit'] at square
  rw [abs_le_one_iff_mul_self_le_one]
  linarith [mul_self_nonneg (v.outer w).length]

/-- The sine of the angle between two directions. -/
theorem sin_arccos_inner : Real.sin (Real.arccos (v.inner w)) = (v.outer w).length := by
  rw [Real.sin_arccos, length_eq_sqrt_inner, inner_outer_self, inner_self_eq, inner_self_eq, unit, unit']
  congr 1
  ring

end Units

/-- The direction of the pole. -/
noncomputable def up : Vec3 ℝ := ⟨0, 0, 1⟩

theorem unitZ_eq : (.unitZ : Vec3 Exact) = up.exact := by
  simp [unitZ, up, exact]

theorem length_up : up.length = 1 := by
  simp [up, length]

theorem inner_up (v : Vec3 ℝ) : v.inner up = v.z := by
  simp [inner, up]

/-- How far a vector is from the vertical. -/
theorem length_outer_up (v : Vec3 ℝ) : (v.outer up).length = (⟨v.x, v.y⟩ : Vec2 ℝ).length := by
  rw [Vec2.length_eq_sqrt, length]
  congr 1
  simp only [outer, up]
  ring

theorem norm_cross_unitZ {v : Vec3 ℝ} (nonzero : v ≠ ⟨0, 0, 0⟩) :
    (v.exact.normalize.cross .unitZ).norm = real (v.normalized.outer up).length := by
  rw [normalize_exact nonzero, unitZ_eq, exact_cross, norm_exact]

theorem z_ne_zero_of_upright {v : Vec3 ℝ} (unit : v.length = 1) (upright : (v.outer up).length ≤ 1 / 2 ^ 52) :
    v.z ≠ 0 := by
  intro level
  rw [length, level, mul_zero, add_zero] at unit
  rw [length_outer_up, Vec2.length_eq_sqrt, unit] at upright
  norm_num at upright

theorem eq_up {v : Vec3 ℝ} (unit : v.length = 1) (high : 0 < v.z) (vertical : (⟨v.x, v.y⟩ : Vec2 ℝ).length = 0) :
    v = up := by
  have origin : (⟨v.x, v.y⟩ : Vec2 ℝ) = 0 := Vec2.eq_of_length_eq_zero vertical
  have x : v.x = 0 := congrArg Vec2.x origin
  have y : v.y = 0 := congrArg Vec2.y origin
  rw [length, x, y, mul_zero, add_zero, zero_add, Real.sqrt_mul_self high.le] at unit
  exact Vec3.ext x y unit

/-- A vector is real or has no length. -/
theorem exists_exact_or_normSquared (v : Vec3 Exact) :
    (∃ w : Vec3 ℝ, v = w.exact) ∨ v.normSquared = .undefined := by
  obtain ⟨_ | x, _ | y, _ | z⟩ := v
  case real.real.real => exact .inl ⟨⟨x, y, z⟩, rfl⟩
  all_goals exact .inr rfl

end Vec3

theorem Triad.turn_scaled (t : Triad) (k : ℝ) (v : Vec3 ℝ) : t.turn (v.scaled k) = (t.turn v).scaled k := by
  apply Vec3.ext <;> simp only [turn, Vec3.scaled] <;> ring

namespace Mat3

/-- A turn keeps what lies along the axis and turns the rest toward what is across. -/
theorem about_apply (u : Vec3 ℝ) (θ : ℝ) (v : Vec3 ℝ) :
    (exact (about u θ)).apply v.exact =
      (v.scaled (Real.cos θ) + (u.outer v).scaled (Real.sin θ) +
        u.scaled ((1 - Real.cos θ) * u.inner v)).exact := by
  simp only [exact, about, apply, Vec3.dot, Vec3.exact, Exact.real_mul, Exact.real_add]
  refine Vec3.ext (congrArg real ?_) (congrArg real ?_) (congrArg real ?_) <;> change _ = (_ : ℝ) + _ + _ <;>
    simp [Vec3.scaled, Vec3.outer, Vec3.inner] <;> ring

/-- The turn about the common perpendicular of two directions by the angle between them takes the
one to the other. -/
theorem about_apply_between {v w : Vec3 ℝ} (unit : v.length = 1) (unit' : w.length = 1)
    (apart : 0 < (v.outer w).length) :
    (exact (about (v.outer w).normalized (Real.arccos (v.inner w)))).apply v.exact = w.exact := by
  obtain ⟨lower, upper⟩ := abs_le.mp (Vec3.abs_inner_le unit unit')
  have across : ((v.outer w).normalized.outer v).scaled (v.outer w).length = w - v.scaled (v.inner w) := by
    rw [Vec3.normalized_eq_scaled, Vec3.scaled_outer, Vec3.scaled_scaled, mul_inv_cancel₀ apart.ne',
      Vec3.scaled_one, Vec3.outer_outer, Vec3.inner_self_eq, unit, mul_one, Vec3.scaled_one]
  have along : (v.outer w).normalized.inner v = 0 := by
    rw [Vec3.normalized_eq_scaled, Vec3.scaled_inner, Vec3.outer_inner_left, mul_zero]
  have none : ((v.outer w).normalized).scaled 0 = 0 :=
    Vec3.ext (zero_mul _) (zero_mul _) (zero_mul _)
  rw [about_apply, Vec3.sin_arccos_inner unit unit', Real.cos_arccos lower upper, across, along, mul_zero, none,
    add_zero, add_sub_cancel]

section Between

variable {v w : Vec3 ℝ} (nonzero : v ≠ ⟨0, 0, 0⟩) (nonzero' : w ≠ ⟨0, 0, 0⟩)
include nonzero nonzero'

theorem rotationBetween_exact : rotationBetween v.exact w.exact =
    if (epsilon : Exact) * epsilon < (v.normalized.outer w.normalized).exact.normSquared then
      some (ofAxisAngle (v.normalized.outer w.normalized).exact.normalize
          (acos (real (v.normalized.inner w.normalized))))
    else if real (v.normalized.inner w.normalized) < 0 then none else some identity := by
  have long {u : Vec3 ℝ} (nonzero : u ≠ ⟨0, 0, 0⟩) : ¬real u.length ≤ 0 := by
    rw [Exact.zero_eq, Exact.real_le, not_le]
    exact Vec3.length_pos nonzero
  simp only [rotationBetween, Vec3.norm_exact, if_neg (long nonzero), if_neg (long nonzero'),
    Vec3.normalize_exact nonzero, Vec3.normalize_exact nonzero', Vec3.exact_cross, Vec3.exact_dot]

theorem rotationBetween_of_lt (tilted : 1 / 2 ^ 52 < (v.normalized.outer w.normalized).length) :
    rotationBetween v.exact w.exact = some (exact (about (v.normalized.outer w.normalized).normalized
      (Real.arccos (v.normalized.inner w.normalized)))) := by
  obtain ⟨lower, upper⟩ :=
    abs_le.mp (Vec3.abs_inner_le (Vec3.length_normalized nonzero) (Vec3.length_normalized nonzero'))
  have square : (epsilon : Exact) * epsilon < (v.normalized.outer w.normalized).exact.normSquared := by
    rw [Exact.epsilon_eq, Exact.real_mul, Vec3.normSquared, Vec3.exact_dot, Exact.real_lt, Vec3.inner_self_eq]
    exact mul_self_lt_mul_self (by positivity) tilted
  have axis : v.normalized.outer w.normalized ≠ ⟨0, 0, 0⟩ := by
    intro zero
    rw [zero] at tilted
    norm_num [Vec3.length] at tilted
  rw [rotationBetween_exact nonzero nonzero', if_pos square, Vec3.normalize_exact axis, Exact.acos_real lower upper,
    ofAxisAngle_exact]

theorem rotationBetween_of_le (upright : (v.normalized.outer w.normalized).length ≤ 1 / 2 ^ 52) :
    rotationBetween v.exact w.exact = if v.normalized.inner w.normalized < 0 then none else some identity := by
  have square : ¬(epsilon : Exact) * epsilon < (v.normalized.outer w.normalized).exact.normSquared := by
    rw [Exact.epsilon_eq, Exact.real_mul, Vec3.normSquared, Vec3.exact_dot, Exact.real_lt, Vec3.inner_self_eq,
      not_lt]
    exact mul_self_le_mul_self (Real.sqrt_nonneg _) upright
  rw [rotationBetween_exact nonzero nonzero', if_neg square]
  simp only [Exact.real_lt_zero]

end Between

theorem apply_undefined (m : Mat3 Exact) :
    m.apply ⟨undefined, undefined, undefined⟩ = ⟨undefined, undefined, undefined⟩ := by
  simp only [apply, Vec3.dot, Exact.undefined_eq, Exact.mul_undefined, Exact.add_undefined]

section ToPole

variable {e : Vec3 ℝ}

theorem toPole_zero : toPole (.zero : Vec3 Exact) = identity := Exact.rotation_zero

theorem toPole_eq (nonzero : e ≠ ⟨0, 0, 0⟩) :
    toPole e.exact = (rotationBetween e.exact Vec3.up.exact).getD (.ofAxisAngle .unitX pi) := by
  have notZero : ¬(e.exact.normSquared == 0) = true := by
    rw [Vec3.normSquared, Vec3.exact_dot, Exact.zero_eq, Exact.real_beq, Vec3.inner_self_eq]
    exact (mul_pos (Vec3.length_pos nonzero) (Vec3.length_pos nonzero)).ne'
  rw [toPole, if_neg notZero, Vec3.unitZ_eq]

theorem toPole_of_tilted (nonzero : e ≠ ⟨0, 0, 0⟩) (tilted : 1 / 2 ^ 52 < (e.normalized.outer .up).length) :
    toPole e.exact =
      exact (about (e.normalized.outer .up).normalized (Real.arccos (e.normalized.inner .up))) := by
  have upward := Vec3.ne_zero_of_length Vec3.length_up
  have between := rotationBetween_of_lt nonzero upward
  rw [Vec3.normalized_of_length Vec3.length_up] at between
  rw [toPole_eq nonzero, between tilted, Option.getD_some]

/-- An epipole too close to the vertical for a turn is kept, or turned over if it points down. -/
theorem toPole_of_upright (nonzero : e ≠ ⟨0, 0, 0⟩) (upright : (e.normalized.outer .up).length ≤ 1 / 2 ^ 52) :
    toPole e.exact = if e.normalized.z < 0 then exact (about ⟨1, 0, 0⟩ Real.pi) else identity := by
  have upward := Vec3.ne_zero_of_length Vec3.length_up
  have between := rotationBetween_of_le nonzero upward
  rw [Vec3.normalized_of_length Vec3.length_up, Vec3.inner_up] at between
  have ahead : (.unitX : Vec3 Exact) = (⟨1, 0, 0⟩ : Vec3 ℝ).exact := by simp [Vec3.unitX, Vec3.exact]
  rw [toPole_eq nonzero, between upright, ahead, Exact.pi_eq, ofAxisAngle_exact]
  split <;> rfl

theorem toPole_of_undefined {e : Vec3 Exact} (undefined : e.normSquared = .undefined) : toPole e = identity := by
  have noLength : e.norm = .undefined := congrArg sqrt undefined
  have noDirection : e.normalize = ⟨.undefined, .undefined, .undefined⟩ := by
    rw [Vec3.normalize, noLength]
    simp only [Vec3.unscale, Exact.div_undefined]
  have noAxis : (e.normalize.cross Vec3.up.exact.normalize).normSquared = .undefined := by
    rw [noDirection]
    rfl
  have noCosine : e.normalize.dot Vec3.up.exact.normalize = .undefined := by
    rw [noDirection]
    rfl
  have between : rotationBetween e .unitZ = some identity := by
    have long : ¬(Exact.undefined : Exact) ≤ 0 := id
    have notDown : ¬(Exact.undefined : Exact) < 0 := id
    simp only [rotationBetween, Vec3.unitZ_eq, noLength, noAxis, noCosine, if_neg long, if_neg notDown,
      if_neg (Exact.not_lt_undefined _), ite_self]
  rw [toPole, undefined, Exact.undefined_beq, if_neg Bool.false_ne_true, between, Option.getD_some]

/-- Every epipole, defined or not, has a rotation. -/
theorem proper_toPole (e : Vec3 Exact) : (toPole e).Proper := by
  have still : (identity : Mat3 Exact).Proper := exact_one ▸ proper_exact (one_mem _)
  rcases e.exists_exact_or_normSquared with ⟨e, rfl⟩ | undefined
  · by_cases zero : e = ⟨0, 0, 0⟩
    · have same : e.exact = .zero := by simp [zero, Vec3.exact, Vec3.zero]
      rw [same, toPole_zero]
      exact still
    · by_cases tilted : 1 / 2 ^ 52 < (e.normalized.outer .up).length
      · have unit : (e.normalized.outer .up).normalized.length = 1 := by
          refine Vec3.length_normalized fun none => ?_
          rw [none] at tilted
          norm_num [Vec3.length] at tilted
        rw [toPole_of_tilted zero tilted]
        exact proper_exact (about_mem (Vec3.length_eq_one_iff.mp unit) _)
      · rw [toPole_of_upright zero (not_lt.mp tilted)]
        split
        · exact proper_exact (about_mem (by simp [Vec3.inner]) _)
        · exact still
  · rw [toPole_of_undefined undefined]
    exact still

end ToPole

end Mat3

namespace EpipoleFrame

variable (f : EpipoleFrame Exact)

theorem proper_rotation : f.rotation.Proper := f.rotation_eq ▸ Mat3.proper_toPole f.epipole

theorem exists_axes : ∃ t : Triad, f.rotation = t.matrix := f.proper_rotation.orthogonal.exists_triad

theorem spherical_undefined :
    f.spherical ⟨undefined, undefined, undefined⟩ = ⟨undefined, undefined, undefined⟩ := by
  rw [spherical, Mat3.apply_undefined, Vec3.toSpherical_undefined]

theorem direction_undefined (azimuth : Exact) :
    f.direction undefined azimuth = ⟨undefined, undefined, undefined⟩ := by
  have none : Spherical.direction undefined azimuth = ⟨undefined, undefined, undefined⟩ := by
    have sine : sin Exact.undefined = .undefined := rfl
    have cosine : cos Exact.undefined = .undefined := rfl
    simp only [Spherical.direction, Spherical.toVec3, Exact.undefined_eq, sine, cosine, Exact.mul_undefined,
      Exact.undefined_mul]
  rw [direction, none, Mat3.apply_undefined]

section Epipole

variable {e : Vec3 ℝ} (nonzero : e ≠ ⟨0, 0, 0⟩)
include nonzero

/-- An epipole that is far enough from the vertical for a turn goes to the pole. -/
theorem rotation_apply_of_tilted (tilted : 1 / 2 ^ 52 < (e.normalized.outer .up).length) :
    (ofEpipole e.exact).rotation.apply e.normalized.exact = Vec3.up.exact := by
  have apart : 0 < (e.normalized.outer .up).length := lt_trans (by positivity) tilted
  change (Mat3.toPole e.exact).apply _ = _
  rw [Mat3.toPole_of_tilted nonzero tilted,
    Mat3.about_apply_between (Vec3.length_normalized nonzero) Vec3.length_up apart]

/-- Any other stays as close to the vertical as it is, on the side of the pole. -/
theorem rotation_apply_of_upright (upright : (e.normalized.outer .up).length ≤ 1 / 2 ^ 52) :
    ∃ w : Vec3 ℝ, (ofEpipole e.exact).rotation.apply e.normalized.exact = w.exact ∧ w.length = 1 ∧ 0 < w.z ∧
      (⟨w.x, w.y⟩ : Vec2 ℝ).length = (e.normalized.outer .up).length := by
  have unit := Vec3.length_normalized nonzero
  have high := Vec3.z_ne_zero_of_upright unit upright
  change ∃ w : Vec3 ℝ, (Mat3.toPole e.exact).apply _ = _ ∧ _
  rw [Mat3.toPole_of_upright nonzero upright, Vec3.length_outer_up]
  split
  next down =>
    refine ⟨⟨e.normalized.x, -e.normalized.y, -e.normalized.z⟩, ?_, ?_, neg_pos.mpr down, ?_⟩
    · simp [Mat3.exact, Mat3.about, Mat3.apply, Vec3.dot, Vec3.exact]
    · rw [Vec3.length, neg_mul_neg, neg_mul_neg]
      exact unit
    · rw [Vec2.length_eq_sqrt, neg_mul_neg, Vec2.length_eq_sqrt]
  next notDown =>
    exact ⟨e.normalized, Exact.identity_apply _, unit, lt_of_le_of_ne (not_lt.mp notDown) high.symm, rfl⟩

end Epipole

variable {f} {t : Triad} (axes : f.rotation = t.matrix)
include axes

/-- The angles of a vector lead back to its direction. -/
theorem direction_spherical {v : Vec3 ℝ} (nonzero : v ≠ ⟨0, 0, 0⟩) :
    f.direction (f.spherical v.exact).polar (f.spherical v.exact).azimuth = v.normalized.exact := by
  have unit := Vec3.length_normalized nonzero
  have unit' := (t.length_turn _).trans unit
  have angles : f.spherical v.exact =
      ⟨real (v.length * (t.turn v.normalized).length), real (t.turn v.normalized).polarAngle,
        real (t.turn v.normalized).azimuth⟩ := by
    rw [spherical, axes, Triad.matrix_apply]
    conv_lhs => rw [← Vec3.scaled_normalized nonzero, t.turn_scaled]
    exact Vec3.toSpherical_scaled (Vec3.length_pos nonzero) (Vec3.ne_zero_of_length unit')
  rw [angles, direction_angles axes unit]

/-- The angles of a direction off the poles are those that it was made from, but for whole turns. -/
theorem spherical_direction {θ : ℝ} (polar : θ ∈ Set.Ioo 0 Real.pi) (φ : ℝ) :
    f.spherical (f.direction (real θ) (real φ)) = ⟨real 1, real θ, real (φ : Real.Angle).toReal⟩ := by
  have unit : (t.turnBack (Vec3.ofAngles θ φ)).length = 1 := (t.length_turnBack _).trans (Vec3.length_ofAngles θ φ)
  rw [direction_exact axes, spherical_exact axes unit, Triad.turn_turnBack,
    Vec3.polarAngle_ofAngles (Set.Ioo_subset_Icc_self polar), Vec3.azimuth_ofAngles polar]

omit axes

/-- Every epipole has a rotation. It takes the direction of the epipole to the pole, but one that is too close
to the vertical for a turn, and not vertical, only to where it is as close to the pole. In the frame of any
epipole the angles of a vector lead back to its direction, and off the poles the angles of a direction are
those that it was made from. -/
theorem rotation_and_angles :
    (∀ e : Vec3 ℝ, e ≠ ⟨0, 0, 0⟩ →
      let rotation := (ofEpipole e.exact).rotation
      let direction := e.exact.normalize
      let tilt := (direction.cross .unitZ).norm
      rotation.Proper ∧ (tilt = 0 ∨ epsilon < tilt → rotation.apply direction = .unitZ) ∧
        (0 < tilt → tilt ≤ epsilon → ∃ w : Vec3 ℝ, rotation.apply direction = w.exact ∧ w.length = 1 ∧ 0 < w.z ∧
          real (⟨w.x, w.y⟩ : Vec2 ℝ).length ≤ epsilon)) ∧
    (ofEpipole (.zero : Vec3 Exact)).rotation = .identity ∧
    ∀ f : EpipoleFrame Exact, f.rotation.Proper ∧
      (∀ v : Vec3 ℝ, v ≠ ⟨0, 0, 0⟩ →
        f.direction (f.spherical v.exact).polar (f.spherical v.exact).azimuth = v.exact.normalize) ∧
      ∀ θ ∈ Set.Ioo 0 Real.pi, ∀ φ : ℝ, ∃ ψ ∈ Set.Ioc (-Real.pi) Real.pi, (ψ : Real.Angle) = φ ∧
        wrapAngle (real φ) = real ψ ∧ f.spherical (f.direction (real θ) (real φ)) = ⟨real 1, real θ, real ψ⟩ := by
  refine ⟨fun e nonzero => ?_, Mat3.toPole_zero, fun f => ⟨f.proper_rotation, ?_, ?_⟩⟩
  · intro rotation direction tilt
    have isDirection : direction = e.normalized.exact := Vec3.normalize_exact nonzero
    have isTilt : tilt = real (e.normalized.outer .up).length := Vec3.norm_cross_unitZ nonzero
    rw [isTilt, isDirection, Exact.epsilon_eq, Exact.real_lt, Exact.real_le, Exact.zero_lt_real, Exact.zero_eq,
      Exact.real.injEq]
    refine ⟨(ofEpipole e.exact).proper_rotation, ?_, fun _ upright => ?_⟩
    · rintro (vertical | tilted)
      · obtain ⟨w, lands, unit, high, level⟩ :=
          rotation_apply_of_upright nonzero (vertical.trans_le (by positivity))
        rw [lands, Vec3.unitZ_eq, Vec3.eq_up unit high (level.trans vertical)]
      · rw [rotation_apply_of_tilted nonzero tilted, Vec3.unitZ_eq]
    · obtain ⟨w, lands, unit, high, level⟩ := rotation_apply_of_upright nonzero upright
      exact ⟨w, lands, unit, high, level.trans_le upright⟩
  · obtain ⟨t, axes⟩ := f.exists_axes
    intro v nonzero
    rw [direction_spherical axes nonzero, Vec3.normalize_exact nonzero]
  · obtain ⟨t, axes⟩ := f.exists_axes
    intro θ polar φ
    exact ⟨_, Real.Angle.toReal_mem_Ioc _, Real.Angle.coe_toReal _, Exact.wrapAngle_real φ,
      spherical_direction axes polar φ⟩

/-- Epipoles that point down, straight, nearly so and aslant, and angles in the frame of the last. -/
theorem rotation_and_angles_of_downward :
    let aslant : Vec3 ℝ := ⟨3, 0, -4⟩
    let straight : Vec3 ℝ := ⟨0, 0, -2⟩
    let nearly : Vec3 ℝ := ⟨1 / 2 ^ 60, 0, -1⟩
    let f := ofEpipole aslant.exact
    (aslant ≠ ⟨0, 0, 0⟩ ∧ epsilon < (aslant.exact.normalize.cross .unitZ).norm ∧
        f.rotation.apply aslant.exact.normalize = .unitZ) ∧
      (straight ≠ ⟨0, 0, 0⟩ ∧ (straight.exact.normalize.cross .unitZ).norm = 0 ∧
        (ofEpipole straight.exact).rotation.apply straight.exact.normalize = .unitZ) ∧
      (nearly ≠ ⟨0, 0, 0⟩ ∧ 0 < (nearly.exact.normalize.cross .unitZ).norm ∧
        (nearly.exact.normalize.cross .unitZ).norm ≤ epsilon ∧ ∃ w : Vec3 ℝ,
          (ofEpipole nearly.exact).rotation.apply nearly.exact.normalize = w.exact ∧ w.length = 1 ∧ 0 < w.z ∧
            real (⟨w.x, w.y⟩ : Vec2 ℝ).length ≤ epsilon) ∧
      f.direction (f.spherical straight.exact).polar (f.spherical straight.exact).azimuth =
        straight.exact.normalize ∧
      Real.pi / 2 ∈ Set.Ioo 0 Real.pi ∧ ∃ ψ ∈ Set.Ioc (-Real.pi) Real.pi, (ψ : Real.Angle) = (3 * Real.pi : ℝ) ∧
        wrapAngle (real (3 * Real.pi)) = real ψ ∧
        f.spherical (f.direction (real (Real.pi / 2)) (real (3 * Real.pi))) =
          ⟨real 1, real (Real.pi / 2), real ψ⟩ := by
  intro aslant straight nearly f
  have nonzero : aslant ≠ ⟨0, 0, 0⟩ := by simp [aslant]
  have nonzero' : straight ≠ ⟨0, 0, 0⟩ := by simp [straight]
  have nonzero'' : nearly ≠ ⟨0, 0, 0⟩ := by simp [nearly]
  have tilt {e : Vec3 ℝ} (nonzero : e ≠ ⟨0, 0, 0⟩) (level : e.y = 0) :
      (e.exact.normalize.cross .unitZ).norm = real (|e.x| / e.length) := by
    rw [Vec3.norm_cross_unitZ nonzero, Vec3.length_outer_up, Vec2.length_eq_sqrt, Vec3.normalized, level,
      zero_div, mul_zero, add_zero, Real.sqrt_mul_self_eq_abs, abs_div, abs_of_pos (Vec3.length_pos nonzero)]
  have long : aslant.length = 5 := by
    rw [Vec3.length, Real.sqrt_eq_iff_mul_self_eq (by norm_num [aslant]) (by norm_num)]
    norm_num [aslant]
  have tilted : epsilon < (aslant.exact.normalize.cross .unitZ).norm := by
    rw [tilt nonzero rfl, long, Exact.epsilon_eq, Exact.real_lt]
    norm_num [aslant]
  have vertical : (straight.exact.normalize.cross .unitZ).norm = 0 := by
    rw [tilt nonzero' rfl, Exact.zero_eq]
    simp [straight]
  have apart : 0 < (nearly.exact.normalize.cross .unitZ).norm := by
    rw [tilt nonzero'' rfl, Exact.zero_lt_real]
    exact div_pos (by norm_num [nearly]) (Vec3.length_pos nonzero'')
  have upright : (nearly.exact.normalize.cross .unitZ).norm ≤ epsilon := by
    have atLeast : 1 ≤ nearly.length := by
      rw [Vec3.length, Real.one_le_sqrt]
      norm_num [nearly]
    rw [tilt nonzero'' rfl, Exact.epsilon_eq, Exact.real_le]
    refine (div_le_self (abs_nonneg _) atLeast).trans ?_
    norm_num [nearly]
  have quarter : Real.pi / 2 ∈ Set.Ioo 0 Real.pi := by
    constructor <;> linarith [Real.pi_pos]
  obtain ⟨epipoles, -, frames⟩ := rotation_and_angles
  obtain ⟨-, back, forth⟩ := frames f
  exact ⟨⟨nonzero, tilted, (epipoles aslant nonzero).2.1 (.inr tilted)⟩,
    ⟨nonzero', vertical, (epipoles straight nonzero').2.1 (.inl vertical)⟩,
    ⟨nonzero'', apart, upright, (epipoles nearly nonzero'').2.2 apart upright⟩, back straight nonzero', quarter,
    forth _ quarter _⟩

end EpipoleFrame

end SphereMotion
