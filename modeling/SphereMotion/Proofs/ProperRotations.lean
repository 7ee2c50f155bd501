import Mathlib
import SphereMotion.Motion.Rotational
import SphereMotion.Proofs.OrthonormalFrames

namespace SphereMotion

open Scalar
open Exact (real)

namespace Mat3

/-- The volume that the rows span, negative if the matrix reflects. -/
def det {α : Type} [Scalar α] (m : Mat3 α) : α := m.row₁.dot (m.row₂.cross m.row₃)

/-- The matrix with these real entries. -/
def exact (m : Matrix (Fin 3) (Fin 3) ℝ) : Mat3 Exact :=
  ⟨⟨real (m 0 0), real (m 0 1), real (m 0 2)⟩, ⟨real (m 1 0), real (m 1 1), real (m 1 2)⟩,
    ⟨real (m 2 0), real (m 2 1), real (m 2 2)⟩⟩

section Entries

variable (m n : Matrix (Fin 3) (Fin 3) ℝ)

theorem exact_one : exact 1 = identity := by
  simp [exact, identity, Vec3.unitX, Vec3.unitY, Vec3.unitZ]

theorem exact_transpose : (exact m).transpose = exact m.transpose := rfl

theorem exact_mul : (exact m).mul (exact n) = exact (m * n) := by
  simp [exact, mul, apply, transpose, ofColumns, Vec3.dot, Matrix.mul_apply, Fin.sum_univ_three, mul_comm]

theorem apply_exact_mul (v : Vec3 ℝ) :
    (exact (m * n)).apply v.exact = (exact m).apply ((exact n).apply v.exact) := by
  simp only [exact, apply, Vec3.dot, Vec3.exact, Matrix.mul_apply, Fin.sum_univ_three, Exact.real_mul,
    Exact.real_add]
  refine Vec3.ext (congrArg real ?_) (congrArg real ?_) (congrArg real ?_) <;> ring

theorem det_exact : (exact m).det = real m.det := by
  rw [Matrix.det_fin_three]
  simp only [det, exact, Vec3.dot, Vec3.cross, Exact.real_mul, Exact.real_sub, Exact.real_add]
  exact congrArg real (by ring)

/-- A rotation of space, which keeps lengths and does not reflect. -/
structure Proper (m : Mat3 Exact) : Prop where
  orthogonal : m.Orthogonal
  det_eq_one : m.det = 1

variable {m n}

theorem proper_exact (rotates : m ∈ Matrix.specialOrthogonalGroup (Fin 3) ℝ) : (exact m).Proper := by
  obtain ⟨orthogonal, volume⟩ := Matrix.mem_specialOrthogonalGroup_iff.mp rotates
  constructor
  · rw [Orthogonal, exact_transpose, exact_mul, (Matrix.mem_orthogonalGroup_iff' _ _).mp orthogonal, exact_one]
  · rw [det_exact, volume, Exact.ofNat_eq, Nat.cast_one]

/-- A rotation seen from a frame is a rotation, also where the frame is left-handed. -/
theorem conjugate_mem (frame : n ∈ Matrix.orthogonalGroup (Fin 3) ℝ)
    (rotates : m ∈ Matrix.specialOrthogonalGroup (Fin 3) ℝ) :
    n * m * n.transpose ∈ Matrix.specialOrthogonalGroup (Fin 3) ℝ := by
  obtain ⟨orthogonal, volume⟩ := Matrix.mem_specialOrthogonalGroup_iff.mp rotates
  have square : n.det * n.det = 1 := by
    have volumes := congrArg Matrix.det ((Matrix.mem_orthogonalGroup_iff' _ _).mp frame)
    rwa [Matrix.det_mul, Matrix.det_transpose, Matrix.det_one] at volumes
  refine Matrix.mem_specialOrthogonalGroup_iff.mpr
    ⟨mul_mem (mul_mem frame orthogonal) (Unitary.star_mem frame), ?_⟩
  rw [Matrix.det_mul, Matrix.det_mul, Matrix.det_transpose, volume, mul_one, square]

end Entries

/-- The turn by an angle about a unit vector. -/
noncomputable def about (u : Vec3 ℝ) (θ : ℝ) : Matrix (Fin 3) (Fin 3) ℝ :=
  let s := Real.sin θ
  let c := Real.cos θ
  !![u.x * u.x + (1 - u.x * u.x) * c, u.x * u.y * (1 - c) - u.z * s, u.x * u.z * (1 - c) + u.y * s;
    u.x * u.y * (1 - c) + u.z * s, u.y * u.y + (1 - u.y * u.y) * c, u.y * u.z * (1 - c) - u.x * s;
    u.x * u.z * (1 - c) - u.y * s, u.y * u.z * (1 - c) + u.x * s, u.z * u.z + (1 - u.z * u.z) * c]

theorem about_zero (u : Vec3 ℝ) : about u 0 = 1 := by
  ext i j
  fin_cases i <;> fin_cases j <;> simp [about]

theorem ofAxisAngle_exact (u : Vec3 ℝ) (θ : ℝ) : ofAxisAngle u.exact (real θ) = exact (about u θ) := by
  rw [ofAxisAngle]
  split
  next still =>
    have zero : θ = 0 := by simpa using still
    rw [zero, about_zero, exact_one]
  next => simp [exact, about, Vec3.exact]

theorem about_mem {u : Vec3 ℝ} (unit : u.inner u = 1) (θ : ℝ) :
    about u θ ∈ Matrix.specialOrthogonalGroup (Fin 3) ℝ := by
  have square := Real.sin_sq_add_cos_sq θ
  rw [Vec3.inner] at unit
  rw [Matrix.mem_specialOrthogonalGroup_iff, Matrix.mem_orthogonalGroup_iff']
  constructor
  -- all products of columns follow from the two squares
  · ext i j
    fin_cases i <;> fin_cases j <;> simp [about, Matrix.mul_apply, Fin.sum_univ_three] <;> grind
  · simp [about, Matrix.det_fin_three]
    grind

end Mat3

namespace Triad

variable (t : Triad)

theorem matrix_eq : t.matrix = Mat3.exact t.columns := rfl

theorem columns_mem : t.columns ∈ Matrix.orthogonalGroup (Fin 3) ℝ :=
  (Matrix.mem_orthogonalGroup_iff' _ _).mpr t.transpose_mul_columns

end Triad

namespace Vec3

/-- The direction at an azimuth from the third axis toward the first and an elevation toward the second. -/
noncomputable def heading (b : Vec2 ℝ) : Vec3 ℝ :=
  ⟨Real.cos b.y * Real.sin b.x, Real.sin b.y, Real.cos b.y * Real.cos b.x⟩

/-- The azimuth and the elevation of a direction. -/
noncomputable def bearings (l : Vec3 ℝ) : Vec2 ℝ :=
  ⟨(⟨l.z, l.x⟩ : Vec2 ℝ).toComplex.arg, (⟨(⟨l.z, l.x⟩ : Vec2 ℝ).length, l.y⟩ : Vec2 ℝ).toComplex.arg⟩

theorem azimuthElevation_exact (l : Vec3 ℝ) : Rotational.azimuthElevation l.exact = l.bearings.exact := by
  have across : sqrt (real l.x * real l.x + real l.z * real l.z) = real (⟨l.z, l.x⟩ : Vec2 ℝ).length := by
    rw [Vec2.length_eq_sqrt, add_comm (l.z * l.z)]
    exact Exact.sqrt_real (add_nonneg (mul_self_nonneg _) (mul_self_nonneg _))
  simp only [Rotational.azimuthElevation, exact, across]
  rfl

theorem heading_zero : heading 0 = ⟨0, 0, 1⟩ := by
  change (⟨Real.cos 0 * Real.sin 0, Real.sin 0, Real.cos 0 * Real.cos 0⟩ : Vec3 ℝ) = _
  simp

/-- A pitch before a yaw leads from the third axis to the azimuth and the elevation. -/
theorem turned_ahead (b : Vec2 ℝ) :
    (Mat3.exact (Mat3.about ⟨0, 1, 0⟩ b.x * Mat3.about ⟨1, 0, 0⟩ (-b.y))).apply (⟨0, 0, 1⟩ : Vec3 ℝ).exact =
      (heading b).exact := by
  simp [Mat3.exact, Mat3.about, Mat3.apply, dot, exact, heading, Matrix.mul_apply, Fin.sum_univ_three, mul_comm]

theorem bearings_heading {b : Vec2 ℝ} (azimuth : b.x ∈ Set.Ioc (-Real.pi) Real.pi)
    (elevation : |b.y| < Real.pi / 2) :
    (heading b).bearings = b := by
  have positive : 0 < Real.cos b.y := Real.cos_pos_of_mem_Ioo (abs_lt.mp elevation)
  have across : (⟨Real.cos b.y * Real.cos b.x, Real.cos b.y * Real.sin b.x⟩ : Vec2 ℝ) =
    .ofPolar (Real.cos b.y) b.x := rfl
  have upright : (⟨Real.cos b.y, Real.sin b.y⟩ : Vec2 ℝ) = .ofPolar 1 b.y := by
    rw [Vec2.ofPolar, one_mul, one_mul]
  obtain ⟨lower, upper⟩ := abs_lt.mp elevation
  simp only [bearings, heading, across, Vec2.length_ofPolar positive.le, upright, Vec2.toComplex_ofPolar]
  apply Vec2.ext
  · exact Complex.arg_mul_cos_add_sin_mul_I positive azimuth
  · exact Complex.arg_mul_cos_add_sin_mul_I one_pos ⟨by linarith [Real.pi_pos], by linarith [Real.pi_pos]⟩

/-- The third axis is straight ahead. -/
theorem bearings_ahead : (⟨0, 0, 1⟩ : Vec3 ℝ).bearings = 0 := by
  rw [← heading_zero]
  exact bearings_heading (b := 0) ⟨neg_lt_zero.mpr Real.pi_pos, Real.pi_pos.le⟩
    (abs_zero.trans_lt Real.pi_div_two_pos)

theorem heading_bearings {l : Vec3 ℝ} (unit : l.length = 1) : heading l.bearings = l := by
  have across := (⟨l.z, l.x⟩ : Vec2 ℝ).length_mul_cos_arg
  have across' := (⟨l.z, l.x⟩ : Vec2 ℝ).length_mul_sin_arg
  have upright := (⟨(⟨l.z, l.x⟩ : Vec2 ℝ).length, l.y⟩ : Vec2 ℝ).length_mul_cos_arg
  have upright' := (⟨(⟨l.z, l.x⟩ : Vec2 ℝ).length, l.y⟩ : Vec2 ℝ).length_mul_sin_arg
  have whole : (⟨(⟨l.z, l.x⟩ : Vec2 ℝ).length, l.y⟩ : Vec2 ℝ).length = 1 := by
    have squares : (⟨l.z, l.x⟩ : Vec2 ℝ).length * (⟨l.z, l.x⟩ : Vec2 ℝ).length = l.z * l.z + l.x * l.x := by
      rw [Vec2.length_eq_sqrt]
      exact Real.mul_self_sqrt (add_nonneg (mul_self_nonneg _) (mul_self_nonneg _))
    rw [Vec2.length_eq_sqrt, squares, ← unit, length]
    congr 1
    ring
  rw [whole, one_mul] at upright upright'
  apply Vec3.ext
  · rw [heading, bearings, upright, across']
  · exact upright'
  · rw [heading, bearings, upright, across]

end Vec3

end SphereMotion
