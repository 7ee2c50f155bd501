import Mathlib
import SphereMotion.Projection
import SphereMotion.Proofs.ExactReal

namespace SphereMotion

open Scalar

open Exact (real)

namespace Vec2

/-- The point with these real coordinates. -/
def exact (p : Vec2 ℝ) : Vec2 Exact := ⟨real p.x, real p.y⟩

noncomputable instance : Zero (Vec2 ℝ) := ⟨⟨0, 0⟩⟩

noncomputable instance : Add (Vec2 ℝ) := ⟨fun p q => ⟨p.x + q.x, p.y + q.y⟩⟩

noncomputable instance : Neg (Vec2 ℝ) := ⟨fun p => ⟨-p.x, -p.y⟩⟩

noncomputable instance : Sub (Vec2 ℝ) := ⟨fun p q => ⟨p.x - q.x, p.y - q.y⟩⟩

noncomputable instance : AddCommGroup (Vec2 ℝ) where
  nsmul := nsmulRec
  zsmul := zsmulRec
  add_assoc p q r := Vec2.ext (add_assoc p.x q.x r.x) (add_assoc p.y q.y r.y)
  zero_add p := Vec2.ext (zero_add p.x) (zero_add p.y)
  add_zero p := Vec2.ext (add_zero p.x) (add_zero p.y)
  neg_add_cancel p := Vec2.ext (neg_add_cancel p.x) (neg_add_cancel p.y)
  add_comm p q := Vec2.ext (add_comm p.x q.x) (add_comm p.y q.y)
  sub_eq_add_neg p q := Vec2.ext (sub_eq_add_neg p.x q.x) (sub_eq_add_neg p.y q.y)

theorem exact_add (p q : Vec2 ℝ) : p.exact + q.exact = (p + q).exact := rfl

theorem exact_sub (p q : Vec2 ℝ) : p.exact - q.exact = (p - q).exact := rfl

theorem exact_inj {p q : Vec2 ℝ} : p.exact = q.exact ↔ p = q := by
  simp [exact, Vec2.ext_iff]

theorem isZero_exact {p : Vec2 ℝ} : p.exact.isZero = true ↔ p = 0 := by
  have origin : p = 0 ↔ p.x = 0 ∧ p.y = 0 := Vec2.ext_iff
  simp [isZero, exact, origin]

theorem isZero_of_ne {p : Vec2 ℝ} (moves : p ≠ 0) : p.exact.isZero = false := by
  rwa [← Bool.not_eq_true, isZero_exact]

noncomputable def scaled (k : ℝ) (p : Vec2 ℝ) : Vec2 ℝ := ⟨k * p.x, k * p.y⟩

theorem scaled_zero (k : ℝ) : (0 : Vec2 ℝ).scaled k = 0 := Vec2.ext (mul_zero k) (mul_zero k)

theorem exact_scale (p : Vec2 ℝ) (k : ℝ) : p.exact.scale (real k) = (p.scaled k).exact := by
  simp only [scale, exact, scaled, Exact.real_mul, mul_comm]

theorem exact_unscale {k : ℝ} (divisor : k ≠ 0) (p : Vec2 ℝ) : p.exact.unscale (real k) = (p.scaled k⁻¹).exact := by
  simp only [unscale, exact, scaled, Exact.real_div divisor, div_eq_inv_mul]

theorem inv_scaled {k : ℝ} (divisor : k ≠ 0) (p : Vec2 ℝ) : (p.scaled k).scaled k⁻¹ = p :=
  Vec2.ext (inv_mul_cancel_left₀ divisor p.x) (inv_mul_cancel_left₀ divisor p.y)

theorem scaled_inv {k : ℝ} (divisor : k ≠ 0) (p : Vec2 ℝ) : (p.scaled k⁻¹).scaled k = p :=
  Vec2.ext (mul_inv_cancel_left₀ divisor p.x) (mul_inv_cancel_left₀ divisor p.y)

/-- The point as a complex number. -/
def toComplex (p : Vec2 ℝ) : ℂ := ⟨p.x, p.y⟩

/-- The distance from the origin. -/
noncomputable def length (p : Vec2 ℝ) : ℝ := ‖p.toComplex‖

theorem length_nonneg (p : Vec2 ℝ) : 0 ≤ p.length := norm_nonneg _

theorem eq_of_length_eq_zero {p : Vec2 ℝ} (zero : p.length = 0) : p = 0 :=
  Vec2.ext (congrArg Complex.re (norm_eq_zero.mp zero)) (congrArg Complex.im (norm_eq_zero.mp zero))

theorem length_eq_sqrt (p : Vec2 ℝ) : p.length = √(p.x * p.x + p.y * p.y) := by
  rw [length, Complex.norm_def, toComplex, Complex.normSq_mk]

noncomputable def distance (p q : Vec2 ℝ) : ℝ := (p - q).length

theorem toPolar_exact (p : Vec2 ℝ) : p.exact.toPolar = ⟨real p.length, real p.toComplex.arg⟩ := by
  rw [toPolar, length_eq_sqrt]
  simp only [exact, Exact.real_mul, Exact.real_add, Exact.atan2_real]
  rw [Exact.sqrt_real (add_nonneg (mul_self_nonneg _) (mul_self_nonneg _))]
  rfl

theorem length_mul_cos_arg (p : Vec2 ℝ) : p.length * Real.cos p.toComplex.arg = p.x :=
  Complex.norm_mul_cos_arg p.toComplex

theorem length_mul_sin_arg (p : Vec2 ℝ) : p.length * Real.sin p.toComplex.arg = p.y :=
  Complex.norm_mul_sin_arg p.toComplex

/-- The point at a radius and an azimuth. -/
noncomputable def ofPolar (r φ : ℝ) : Vec2 ℝ := ⟨r * Real.cos φ, r * Real.sin φ⟩

theorem toComplex_ofPolar (r φ : ℝ) :
    (ofPolar r φ).toComplex = (r : ℂ) * (Complex.cos φ + Complex.sin φ * Complex.I) := by
  rw [toComplex, ofPolar, Complex.mk_eq_add_mul_I]
  push_cast
  ring

theorem length_ofPolar_eq_abs (r φ : ℝ) : (ofPolar r φ).length = |r| := by
  rw [length, toComplex_ofPolar, norm_mul, Complex.norm_real, Real.norm_eq_abs, Complex.norm_cos_add_sin_mul_I,
    mul_one]

theorem length_ofPolar {r : ℝ} (nonneg : 0 ≤ r) (φ : ℝ) : (ofPolar r φ).length = r := by
  rw [length_ofPolar_eq_abs, abs_of_nonneg nonneg]

theorem ofPolar_length_arg (p : Vec2 ℝ) : ofPolar p.length p.toComplex.arg = p :=
  Vec2.ext p.length_mul_cos_arg p.length_mul_sin_arg

end Vec2

namespace Polar

theorem toVec2_real (r φ : ℝ) : Polar.toVec2 ⟨real r, real φ⟩ = (Vec2.ofPolar r φ).exact := rfl

/-- The polar coordinates of a point are those that it was made from, but the origin has no azimuth of its own. -/
theorem toPolar_toVec2 {r φ : ℝ} (nonneg : 0 ≤ r) (turn : φ ∈ Set.Ioc (-Real.pi) Real.pi) :
    (Polar.toVec2 ⟨real r, real φ⟩).toPolar = ⟨real r, real (if r = 0 then 0 else φ)⟩ := by
  rw [toVec2_real, Vec2.toPolar_exact, Vec2.length_ofPolar nonneg, Vec2.toComplex_ofPolar]
  congr 2
  split
  next zero => rw [zero, Complex.ofReal_zero, zero_mul, Complex.arg_zero]
  next nonzero => exact Complex.arg_mul_cos_add_sin_mul_I (lt_of_le_of_ne nonneg (Ne.symm nonzero)) turn

end Polar

namespace Vec3

/-- The vector with these real coordinates. -/
def exact (v : Vec3 ℝ) : Vec3 Exact := ⟨real v.x, real v.y, real v.z⟩

theorem exact_inj {v w : Vec3 ℝ} : v.exact = w.exact ↔ v = w := by
  simp [exact, Vec3.ext_iff]

noncomputable instance : Zero (Vec3 ℝ) := ⟨⟨0, 0, 0⟩⟩

noncomputable instance : Add (Vec3 ℝ) := ⟨fun v w => ⟨v.x + w.x, v.y + w.y, v.z + w.z⟩⟩

noncomputable instance : Neg (Vec3 ℝ) := ⟨fun v => ⟨-v.x, -v.y, -v.z⟩⟩

noncomputable instance : Sub (Vec3 ℝ) := ⟨fun v w => ⟨v.x - w.x, v.y - w.y, v.z - w.z⟩⟩

noncomputable instance : AddCommGroup (Vec3 ℝ) where
  nsmul := nsmulRec
  zsmul := zsmulRec
  add_assoc u v w := Vec3.ext (add_assoc u.x v.x w.x) (add_assoc u.y v.y w.y) (add_assoc u.z v.z w.z)
  zero_add v := Vec3.ext (zero_add v.x) (zero_add v.y) (zero_add v.z)
  add_zero v := Vec3.ext (add_zero v.x) (add_zero v.y) (add_zero v.z)
  neg_add_cancel v := Vec3.ext (neg_add_cancel v.x) (neg_add_cancel v.y) (neg_add_cancel v.z)
  add_comm v w := Vec3.ext (add_comm v.x w.x) (add_comm v.y w.y) (add_comm v.z w.z)
  sub_eq_add_neg v w := Vec3.ext (sub_eq_add_neg v.x w.x) (sub_eq_add_neg v.y w.y) (sub_eq_add_neg v.z w.z)

theorem exact_neg (v : Vec3 ℝ) : -v.exact = (-v).exact := rfl

noncomputable def scaled (k : ℝ) (v : Vec3 ℝ) : Vec3 ℝ := ⟨k * v.x, k * v.y, k * v.z⟩

theorem scaled_one (v : Vec3 ℝ) : v.scaled 1 = v := Vec3.ext (one_mul v.x) (one_mul v.y) (one_mul v.z)

theorem scaled_scaled (k l : ℝ) (v : Vec3 ℝ) : (v.scaled l).scaled k = v.scaled (k * l) :=
  Vec3.ext (mul_assoc k l v.x).symm (mul_assoc k l v.y).symm (mul_assoc k l v.z).symm

noncomputable def inner (v w : Vec3 ℝ) : ℝ := v.x * w.x + v.y * w.y + v.z * w.z

theorem exact_add (v w : Vec3 ℝ) : v.exact + w.exact = (v + w).exact := rfl

theorem exact_sub (v w : Vec3 ℝ) : v.exact - w.exact = (v - w).exact := rfl

theorem exact_scale (v : Vec3 ℝ) (k : ℝ) : v.exact.scale (real k) = (v.scaled k).exact := by
  simp only [scale, exact, scaled, Exact.real_mul, mul_comm]

theorem exact_dot (v w : Vec3 ℝ) : v.exact.dot w.exact = real (v.inner w) := rfl

theorem inner_comm (v w : Vec3 ℝ) : v.inner w = w.inner v := by
  simp only [inner, mul_comm]

theorem inner_add (u v w : Vec3 ℝ) : u.inner (v + w) = u.inner v + u.inner w := by
  change u.x * (v.x + w.x) + u.y * (v.y + w.y) + u.z * (v.z + w.z) = _
  simp only [inner]
  ring

theorem inner_sub (u v w : Vec3 ℝ) : u.inner (v - w) = u.inner v - u.inner w := by
  change u.x * (v.x - w.x) + u.y * (v.y - w.y) + u.z * (v.z - w.z) = _
  simp only [inner]
  ring

theorem inner_scaled (u : Vec3 ℝ) (k : ℝ) (v : Vec3 ℝ) : u.inner (v.scaled k) = k * u.inner v := by
  simp only [inner, scaled]
  ring

noncomputable def length (v : Vec3 ℝ) : ℝ := √(v.x * v.x + v.y * v.y + v.z * v.z)

theorem length_eq_sqrt_inner (v : Vec3 ℝ) : v.length = √(v.inner v) := rfl

theorem length_eq_one_iff {v : Vec3 ℝ} : v.length = 1 ↔ v.inner v = 1 := Real.sqrt_eq_one

theorem length_scaled {k : ℝ} (nonneg : 0 ≤ k) (v : Vec3 ℝ) : (v.scaled k).length = k * v.length := by
  rw [length, length, ← Real.sqrt_mul_self nonneg, ← Real.sqrt_mul (mul_self_nonneg k), Real.sqrt_mul_self nonneg]
  congr 1
  simp only [scaled]
  ring

/-- The unit vector in the direction of `v`. -/
noncomputable def normalized (v : Vec3 ℝ) : Vec3 ℝ := ⟨v.x / v.length, v.y / v.length, v.z / v.length⟩

theorem normalized_eq_scaled (v : Vec3 ℝ) : v.normalized = v.scaled v.length⁻¹ :=
  Vec3.ext (div_eq_inv_mul _ _) (div_eq_inv_mul _ _) (div_eq_inv_mul _ _)

theorem length_mul_length (v : Vec3 ℝ) : v.length * v.length = v.x * v.x + v.y * v.y + v.z * v.z :=
  Real.mul_self_sqrt (by nlinarith [mul_self_nonneg v.x, mul_self_nonneg v.y, mul_self_nonneg v.z])

theorem length_pos {v : Vec3 ℝ} (nonzero : v ≠ ⟨0, 0, 0⟩) : 0 < v.length := by
  refine lt_of_le_of_ne (Real.sqrt_nonneg _) fun zero => nonzero ?_
  have squares := v.length_mul_length
  rw [← zero, mul_zero] at squares
  ext <;> nlinarith [mul_self_nonneg v.x, mul_self_nonneg v.y, mul_self_nonneg v.z]

theorem length_neg (v : Vec3 ℝ) : (-v).length = v.length :=
  congrArg Real.sqrt (congrArg₂ (· + ·) (congrArg₂ (· + ·) (neg_mul_neg v.x v.x) (neg_mul_neg v.y v.y))
    (neg_mul_neg v.z v.z))

theorem norm_exact (v : Vec3 ℝ) : v.exact.norm = real v.length :=
  Exact.sqrt_real (by nlinarith [mul_self_nonneg v.x, mul_self_nonneg v.y, mul_self_nonneg v.z])

theorem normalize_exact {v : Vec3 ℝ} (nonzero : v ≠ ⟨0, 0, 0⟩) : v.exact.normalize = v.normalized.exact := by
  have divisor := (length_pos nonzero).ne'
  rw [normalize, norm_exact]
  simp only [unscale, exact, Exact.real_div divisor, normalized]

theorem normalized_scaled {k : ℝ} (positive : 0 < k) (v : Vec3 ℝ) : (v.scaled k).normalized = v.normalized := by
  rw [normalized, length_scaled positive.le]
  simp only [scaled, mul_div_mul_left _ _ positive.ne', normalized]

theorem normalized_neg (v : Vec3 ℝ) : (-v).normalized = -v.normalized := by
  rw [normalized, length_neg]
  exact Vec3.ext (neg_div _ _) (neg_div _ _) (neg_div _ _)

/-- A vector is its length times its direction. -/
theorem scaled_normalized {v : Vec3 ℝ} (nonzero : v ≠ ⟨0, 0, 0⟩) : v.normalized.scaled v.length = v := by
  have divisor := (length_pos nonzero).ne'
  exact Vec3.ext (mul_div_cancel₀ _ divisor) (mul_div_cancel₀ _ divisor) (mul_div_cancel₀ _ divisor)

theorem length_normalized {v : Vec3 ℝ} (nonzero : v ≠ ⟨0, 0, 0⟩) : v.normalized.length = 1 := by
  have positive := length_pos nonzero
  have squares := v.length_mul_length
  rw [length, Real.sqrt_eq_one]
  simp only [normalized]
  field_simp
  nlinarith

/-- The polar angle, measured from the third axis. -/
noncomputable def polarAngle (v : Vec3 ℝ) : ℝ := Real.arccos (v.z / v.length)

theorem polarAngle_mem (v : Vec3 ℝ) : v.polarAngle ∈ Set.Icc 0 Real.pi :=
  ⟨Real.arccos_nonneg _, Real.arccos_le_pi _⟩

/-- The azimuth about the third axis. -/
noncomputable def azimuth (v : Vec3 ℝ) : ℝ := (⟨v.x, v.y⟩ : Vec2 ℝ).toComplex.arg

theorem azimuth_mem (v : Vec3 ℝ) : v.azimuth ∈ Set.Ioc (-Real.pi) Real.pi := Complex.arg_mem_Ioc _

theorem polarAngle_scaled {k : ℝ} (positive : 0 < k) (v : Vec3 ℝ) : (v.scaled k).polarAngle = v.polarAngle := by
  rw [polarAngle, length_scaled positive.le]
  simp only [scaled, mul_div_mul_left _ _ positive.ne', polarAngle]

theorem azimuth_scaled {k : ℝ} (positive : 0 < k) (v : Vec3 ℝ) : (v.scaled k).azimuth = v.azimuth := by
  have stretched : (⟨k * v.x, k * v.y⟩ : Vec2 ℝ).toComplex = (k : ℂ) * (⟨v.x, v.y⟩ : Vec2 ℝ).toComplex :=
    Complex.ext (by simp [Vec2.toComplex]) (by simp [Vec2.toComplex])
  rw [azimuth, scaled, stretched, Complex.arg_real_mul _ positive, azimuth]

theorem abs_z_le_length (v : Vec3 ℝ) : |v.z| ≤ v.length :=
  Real.abs_le_sqrt (by nlinarith [mul_self_nonneg v.x, mul_self_nonneg v.y])

theorem cosine_mem {v : Vec3 ℝ} (nonzero : v ≠ ⟨0, 0, 0⟩) : -1 ≤ v.z / v.length ∧ v.z / v.length ≤ 1 := by
  have positive := length_pos nonzero
  rw [← abs_le, abs_div, abs_of_pos positive]
  exact (div_le_one positive).mpr v.abs_z_le_length

theorem toSpherical_exact {v : Vec3 ℝ} (nonzero : v ≠ ⟨0, 0, 0⟩) :
    v.exact.toSpherical = ⟨real v.length, real v.polarAngle, real v.azimuth⟩ := by
  have positive := length_pos nonzero
  have radius : sqrt (v.exact.x * v.exact.x + v.exact.y * v.exact.y + v.exact.z * v.exact.z) = real v.length :=
    v.norm_exact
  have notZero : ¬(real v.length == 0) = true := by
    rw [Exact.ofNat_eq, Exact.real_beq, Nat.cast_zero]
    exact positive.ne'
  obtain ⟨lower, upper⟩ := cosine_mem nonzero
  have low : (-1 : Exact) = real (-1) := by rw [Exact.ofNat_eq, Exact.real_neg, Nat.cast_one]
  have high : (1 : Exact) = real 1 := by rw [Exact.ofNat_eq, Nat.cast_one]
  have angle : acos (clamp (v.exact.z / real v.length) (-1) 1) = real v.polarAngle := by
    rw [exact, Exact.real_div positive.ne', low, high, Exact.clamp_real (by norm_num), min_eq_left upper,
      max_eq_right lower, Exact.acos_real lower upper]
    rfl
  rw [toSpherical]
  simp only [radius, if_neg notZero, angle]
  rfl

/-- What is left of a vector when its part along the third axis is taken away. -/
theorem length_mul_sin_polarAngle {v : Vec3 ℝ} (nonzero : v ≠ ⟨0, 0, 0⟩) :
    v.length * Real.sin v.polarAngle = (⟨v.x, v.y⟩ : Vec2 ℝ).length := by
  have positive := length_pos nonzero
  have squares := v.length_mul_length
  rw [polarAngle, Real.sin_arccos, Vec2.length_eq_sqrt, ← Real.sqrt_mul_self positive.le,
    ← Real.sqrt_mul (by positivity), Real.sqrt_mul_self positive.le]
  congr 1
  field_simp
  linarith

/-- The unit vector with a polar angle and an azimuth. -/
noncomputable def ofAngles (θ φ : ℝ) : Vec3 ℝ := ⟨Real.sin θ * Real.cos φ, Real.sin θ * Real.sin φ, Real.cos θ⟩

theorem direction_eq_ofAngles (θ φ : ℝ) : Spherical.direction (real θ) (real φ) = (ofAngles θ φ).exact := by
  simp [Spherical.direction, Spherical.toVec3, exact, ofAngles]

theorem length_ofAngles (θ φ : ℝ) : (ofAngles θ φ).length = 1 := by
  rw [length, Real.sqrt_eq_one]
  simp only [ofAngles]
  linear_combination Real.sin θ ^ 2 * Real.sin_sq_add_cos_sq φ + Real.sin_sq_add_cos_sq θ

/-- The angles of a vector lead back to its direction. -/
theorem direction_angles {v : Vec3 ℝ} (nonzero : v ≠ ⟨0, 0, 0⟩) :
    Spherical.direction (real v.polarAngle) (real v.azimuth) = v.normalized.exact := by
  have positive := length_pos nonzero
  have sine : Real.sin v.polarAngle = (⟨v.x, v.y⟩ : Vec2 ℝ).length / v.length := by
    rw [eq_div_iff positive.ne', mul_comm, length_mul_sin_polarAngle nonzero]
  have cosine : Real.cos v.polarAngle = v.z / v.length :=
    Real.cos_arccos (cosine_mem nonzero).1 (cosine_mem nonzero).2
  have right := (⟨v.x, v.y⟩ : Vec2 ℝ).length_mul_cos_arg
  have down := (⟨v.x, v.y⟩ : Vec2 ℝ).length_mul_sin_arg
  rw [direction_eq_ofAngles, ofAngles, sine, cosine]
  simp only [exact, normalized, div_mul_eq_mul_div, azimuth, right, down]

theorem ne_zero_of_length {v : Vec3 ℝ} (unit : v.length = 1) : v ≠ ⟨0, 0, 0⟩ := by
  rintro rfl
  simp [length] at unit

theorem normalized_of_length {v : Vec3 ℝ} (unit : v.length = 1) : v.normalized = v := by
  simp only [normalized, unit, div_one]

/-- The spherical coordinates of a unit vector are the angles that it was made from, but a pole has
no azimuth of its own. -/
theorem toSpherical_ofAngles {θ φ : ℝ} (polar : θ ∈ Set.Icc 0 Real.pi) (turn : φ ∈ Set.Ioc (-Real.pi) Real.pi) :
    (ofAngles θ φ).exact.toSpherical = ⟨real 1, real θ, real (if Real.sin θ = 0 then 0 else φ)⟩ := by
  have unit := length_ofAngles θ φ
  have azimuth := Polar.toPolar_toVec2 (Real.sin_nonneg_of_mem_Icc polar) turn
  rw [Polar.toVec2_real, Vec2.toPolar_exact, Polar.mk.injEq] at azimuth
  rw [toSpherical_exact (ne_zero_of_length unit), unit, polarAngle, unit, div_one]
  congr 2
  · exact Real.arccos_cos polar.1 polar.2
  · exact real.inj azimuth.2

/-- The coordinates of a world vector in the frame of the camera. -/
noncomputable def camera (v : Vec3 ℝ) : Vec3 ℝ := ⟨-v.y, -v.z, v.x⟩

/-- The world coordinates of a vector in the frame of the camera. -/
noncomputable def world (v : Vec3 ℝ) : Vec3 ℝ := ⟨v.z, -v.x, -v.y⟩

theorem toCamera_exact (v : Vec3 ℝ) : v.exact.toCamera = v.camera.exact := rfl

theorem ofCamera_exact (v : Vec3 ℝ) : v.exact.ofCamera = v.world.exact := rfl

theorem camera_world (v : Vec3 ℝ) : v.world.camera = v := Vec3.ext (neg_neg _) (neg_neg _) rfl

theorem length_camera (v : Vec3 ℝ) : v.camera.length = v.length := by
  simp only [length, camera]
  congr 1
  ring

theorem length_world (v : Vec3 ℝ) : v.world.length = v.length := by rw [← length_camera, camera_world]

theorem camera_ne_zero {v : Vec3 ℝ} (nonzero : v ≠ ⟨0, 0, 0⟩) : v.camera ≠ ⟨0, 0, 0⟩ := by
  intro zero
  rw [camera, Vec3.mk.injEq, neg_eq_zero, neg_eq_zero] at zero
  exact nonzero (Vec3.ext zero.2.2 zero.1 zero.2.1)

theorem world_normalized_camera (v : Vec3 ℝ) : v.camera.normalized.world = v.normalized := by
  rw [normalized, length_camera, normalized]
  simp [world, camera, neg_div]

end Vec3

end SphereMotion
