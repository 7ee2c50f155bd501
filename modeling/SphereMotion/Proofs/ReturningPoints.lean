import Mathlib
import SphereMotion.Proofs.RoundTrip

namespace SphereMotion

open Scalar
open Exact (real)

namespace Vec3

variable {k : ℝ} {v : Vec3 ℝ}

theorem scaled_ne_zero (positive : 0 < k) (nonzero : v ≠ ⟨0, 0, 0⟩) : v.scaled k ≠ ⟨0, 0, 0⟩ := by
  intro zero
  have still := length_scaled positive.le v
  rw [zero, length] at still
  simp [positive.ne', (length_pos nonzero).ne'] at still

theorem toSpherical_scaled (positive : 0 < k) (nonzero : v ≠ ⟨0, 0, 0⟩) :
    (v.scaled k).exact.toSpherical = ⟨real (k * v.length), real v.polarAngle, real v.azimuth⟩ := by
  rw [toSpherical_exact (scaled_ne_zero positive nonzero), length_scaled positive.le, polarAngle_scaled positive,
    azimuth_scaled positive]

theorem camera_scaled (k : ℝ) (v : Vec3 ℝ) : (v.scaled k).camera = v.camera.scaled k :=
  Vec3.ext (neg_mul_eq_mul_neg k v.y) (neg_mul_eq_mul_neg k v.z) rfl

theorem toSpherical_undefined :
    (⟨undefined, undefined, undefined⟩ : Vec3 Exact).toSpherical = ⟨undefined, undefined, undefined⟩ := by
  have notZero : ((undefined : Exact) == 0) = false := Exact.undefined_beq 0
  have notBelow : ¬(undefined : Exact) < -1 := id
  have notAbove : ¬(1 : Exact) < undefined := id
  have limited : clamp (undefined : Exact) (-1) 1 = undefined := by
    rw [clamp, if_neg notBelow, if_neg notAbove]
  change (⟨undefined, if (undefined : Exact) == 0 then 0 else acos (clamp undefined (-1) 1), undefined⟩ :
    Spherical Exact) = _
  rw [notZero, if_neg Bool.false_ne_true, limited]
  rfl

end Vec3

theorem Projection.project_undefined (p : Projection Exact) :
    p.project ⟨undefined, undefined, undefined⟩ = ⟨undefined, undefined⟩ := by
  cases p with
  | lens p =>
    have camera : (⟨undefined, undefined, undefined⟩ : Vec3 Exact).toCamera = ⟨undefined, undefined, undefined⟩ :=
      rfl
    have radius : p.lens.radius undefined = (undefined : Exact) := by
      cases p.lens with
      | equisolid f => exact Exact.mul_undefined (2 * f)
      | calibrated => exact if_pos Exact.isUndefined_undefined
    simp only [project, LensProjection.project, camera, Vec3.toSpherical_undefined, radius]
    rfl
  | panorama p =>
    have west : ¬(0 : Exact) < undefined := id
    simp only [project, Panorama.project, Panorama.place, Vec3.toSpherical_undefined, if_neg west]
    rfl

/-- A vector that leads to the shifted point if it is not zero leads there unless the point itself
has to be left. -/
theorem MotionModel.movePoint_shift_iff {model : MotionModel Exact} {position shifted motion : Vec2 ℝ}
    {center : Vec2 Exact} {same : Prop} (zero : motion = 0 ↔ same)
    (moved : motion ≠ 0 → model.movePoint position.exact motion.exact center = shifted.exact) :
    model.movePoint position.exact motion.exact center = shifted.exact ↔ position = shifted ∨ ¬same := by
  rw [← zero]
  by_cases still : motion = 0
  · rw [movePoint_of_isZero _ (Vec2.isZero_exact.mpr still), Vec2.exact_inj]
    exact ⟨.inl, fun lies => lies.resolve_right (not_not_intro still)⟩
  · exact iff_of_true (moved still) (.inr still)

namespace ClosedForm

variable (c : ClosedForm) {p q : Vec2 ℝ} {v : Vec3 ℝ}

theorem exists_focalLength :
    ∃ f : ℝ, 0 < f ∧ c.projection.focalLength = real f ∧ c.projection.angleResolution = real f⁻¹ := by
  have positive : ∃ f : ℝ, 0 < f ∧ c.projection.focalLength = real f := by
    cases c with
    | equisolid f center positive => exact ⟨f, positive, rfl⟩
    | panorama width height offset wide tall =>
      exact ⟨width / (2 * Real.pi), div_pos wide Real.two_pi_pos, Exact.focalLength_panorama⟩
  obtain ⟨f, positive, focal⟩ := positive
  exact ⟨f, positive, focal, one_div f ▸ Projection.angleResolution_real focal positive.ne'⟩

theorem exists_resolution : ∃ a : ℝ, 0 < a ∧ c.projection.angleResolution = real a := by
  obtain ⟨f, positive, -, resolution⟩ := c.exists_focalLength
  exact ⟨f⁻¹, inv_pos.mpr positive, resolution⟩

/-- The image of a vector does not depend on its length. -/
theorem project_scaled {k : ℝ} (positive : 0 < k) (nonzero : v ≠ ⟨0, 0, 0⟩) :
    c.projection.project (v.scaled k).exact = c.projection.project v.exact := by
  cases c with
  | equisolid f center _ =>
    have seen := Vec3.camera_ne_zero nonzero
    simp only [projection, Projection.project, LensProjection.project, Vec3.toCamera_exact, Vec3.camera_scaled,
      Vec3.toSpherical_scaled positive seen, Vec3.toSpherical_exact seen]
  | panorama width height offset _ _ =>
    exact (Exact.project_panorama_of_toSpherical (Vec3.toSpherical_scaled positive nonzero)).trans
      (Exact.project_panorama_of_toSpherical (Vec3.toSpherical_exact nonzero)).symm

theorem project_normalized (nonzero : v ≠ ⟨0, 0, 0⟩) :
    c.projection.project v.normalized.exact = c.projection.project v.exact := by
  have direction := Vec3.ne_zero_of_length (Vec3.length_normalized nonzero)
  conv_rhs => rw [← Vec3.scaled_normalized nonzero]
  rw [c.project_scaled (Vec3.length_pos nonzero) direction]

/-- A point that is the image of its direction. -/
def Returns (p : Vec2 ℝ) : Prop := c.projection.project (c.projection.unproject p.exact) = p.exact

variable {c}

theorem Covers.sees (covers : c.Covers p) : c.Sees p := by
  cases covers with
  | equisolid within => exact .equisolid within
  | panorama => exact .panorama

theorem Inside.returns (inside : c.Inside p) : c.Returns p := project_unproject inside

section Panorama

variable {width height offset : ℝ} {wide : 0 < width} {tall : 0 < height}

theorem unproject_of_angles {θ φ : ℝ} (polar : (p.y + offset) / height * Real.pi = θ)
    (azimuth : -(p.x + offset) / width * 2 * Real.pi = φ) :
    (panorama width height offset wide tall).projection.unproject p.exact = (Vec3.ofAngles θ φ).exact := by
  rw [← polar, ← azimuth]
  exact unproject_panorama wide tall p

/-- All points of the top row of a panorama show the upper pole. -/
theorem unproject_top (top : p.y + offset = 0) :
    (panorama width height offset wide tall).projection.unproject p.exact = (⟨0, 0, 1⟩ : Vec3 ℝ).exact := by
  rw [unproject_of_angles (by rw [top, zero_div, zero_mul]) rfl, Vec3.ofAngles, Real.sin_zero, Real.cos_zero,
    zero_mul, zero_mul]

/-- The image of the upper pole is the first of them. -/
theorem returns_corner (left : p.x + offset = 0) (top : p.y + offset = 0) :
    (panorama width height offset wide tall).Returns p := by
  have angles : (⟨0, 0, 1⟩ : Vec3 ℝ).exact.toSpherical = ⟨real 1, real 0, real 0⟩ := by
    have polar := Vec3.toSpherical_ofAngles (φ := 0) ⟨le_refl 0, Real.pi_pos.le⟩
      ⟨neg_lt_zero.mpr Real.pi_pos, Real.pi_pos.le⟩
    rwa [if_pos Real.sin_zero, Vec3.ofAngles, Real.sin_zero, Real.cos_zero, zero_mul, zero_mul] at polar
  rw [Returns, unproject_top top]
  refine (Exact.project_panorama_of_toSpherical angles).trans ?_
  rw [if_neg (lt_irrefl 0), neg_zero, zero_div, zero_div, zero_mul, zero_mul]
  exact Vec2.ext (congrArg real (eq_sub_of_add_eq left).symm) (congrArg real (eq_sub_of_add_eq top).symm)

end Panorama

theorem unproject_of_not_sees (blind : ¬c.Sees p) :
    c.projection.unproject p.exact = ⟨undefined, undefined, undefined⟩ := by
  cases c with
  | equisolid f center positive =>
    have beyond : 2 * f < p.distance center := not_le.mp (mt sees_equisolid_iff.mpr blind)
    have angle : (Lens.equisolid (real f)).angle (real (p.distance center)) = undefined := by
      have ratio : ¬p.distance center / (2 * f) ∈ Set.Icc (-1) 1 :=
        fun within => (((one_lt_div (by positivity)).mpr beyond).trans_le within.2).false
      simp only [Lens.angle, Exact.ofNat_eq, Nat.cast_ofNat, Exact.real_mul,
        Exact.real_div (mul_pos two_pos positive).ne']
      rw [Exact.asin_of_not_mem ratio]
      rfl
    simp only [projection, Projection.unproject, LensProjection.unproject, Vec2.exact_sub, Vec2.toPolar_exact]
    rw [← Vec2.distance, angle]
    rfl
  | panorama width height offset wide tall => exact absurd .panorama blind

theorem not_exists_direction (blind : ¬c.Sees p) : ¬∃ d : Vec3 ℝ, c.projection.unproject p.exact = d.exact := by
  rw [unproject_of_not_sees blind]
  rintro ⟨d, value⟩
  cases congrArg Vec3.x value

namespace Returns

theorem sees (returns : c.Returns p) : c.Sees p := by
  by_contra blind
  rw [Returns, unproject_of_not_sees blind, Projection.project_undefined] at returns
  cases congrArg Vec2.x returns

/-- A direction belongs to one point only. -/
theorem eq_of_unproject_eq (returns : c.Returns p) (returns' : c.Returns q)
    (same : c.projection.unproject p.exact = c.projection.unproject q.exact) : p = q := by
  rw [← Vec2.exact_inj, ← returns, same, returns']

theorem unproject_ne (returns : c.Returns p) (returns' : c.Returns q) (apart : p ≠ q) :
    c.projection.unproject p.exact ≠ c.projection.unproject q.exact :=
  fun same => apart (returns.eq_of_unproject_eq returns' same)

end Returns

end ClosedForm

end SphereMotion
