import Mathlib
import SphereMotion.Proofs.ExactSphere

namespace SphereMotion

open Scalar
open Exact (real)

namespace Vec3

theorem exists_exact_of_dot_self {v : Vec3 Exact} {r : ℝ} (square : v.dot v = real r) :
    ∃ w : Vec3 ℝ, v = w.exact := by
  obtain ⟨_ | x, _ | y, _ | z⟩ := v <;> first | exact ⟨⟨x, y, z⟩, rfl⟩ | cases square

end Vec3

/-- Three unit vectors at right angles to each other. -/
structure Triad where
  first : Vec3 ℝ
  second : Vec3 ℝ
  third : Vec3 ℝ
  unit_first : first.inner first = 1
  unit_second : second.inner second = 1
  unit_third : third.inner third = 1
  first_second : first.inner second = 0
  first_third : first.inner third = 0
  second_third : second.inner third = 0

namespace Triad

variable (t : Triad)

/-- The vector with the given coordinates along the axes. -/
noncomputable def turn (l : Vec3 ℝ) : Vec3 ℝ :=
  ⟨t.first.x * l.x + t.second.x * l.y + t.third.x * l.z, t.first.y * l.x + t.second.y * l.y + t.third.y * l.z,
    t.first.z * l.x + t.second.z * l.y + t.third.z * l.z⟩

/-- The coordinates of a vector along the axes. -/
noncomputable def turnBack (v : Vec3 ℝ) : Vec3 ℝ := ⟨t.first.inner v, t.second.inner v, t.third.inner v⟩

theorem inner_turn (v l : Vec3 ℝ) :
    v.inner (t.turn l) = v.inner t.first * l.x + v.inner t.second * l.y + v.inner t.third * l.z := by
  simp only [Vec3.inner, turn]
  ring

theorem turnBack_turn (l : Vec3 ℝ) : t.turnBack (t.turn l) = l := by
  rw [turnBack, inner_turn, inner_turn, inner_turn, t.unit_first, t.unit_second, t.unit_third,
    t.second.inner_comm t.first, t.third.inner_comm t.first, t.third.inner_comm t.second, t.first_second,
    t.first_third, t.second_third]
  apply Vec3.ext <;> ring

/-- The axes as the columns of a real matrix. -/
noncomputable def columns : Matrix (Fin 3) (Fin 3) ℝ :=
  !![t.first.x, t.second.x, t.third.x; t.first.y, t.second.y, t.third.y; t.first.z, t.second.z, t.third.z]

theorem transpose_mul_columns : t.columns.transpose * t.columns = 1 := by
  obtain ⟨first, second, third, unit₁, unit₂, unit₃, right₁₂, right₁₃, right₂₃⟩ := t
  simp only [Vec3.inner] at unit₁ unit₂ unit₃ right₁₂ right₁₃ right₂₃
  ext i j
  fin_cases i <;> fin_cases j <;> simp [columns, Matrix.mul_apply, Fin.sum_univ_three] <;> linarith

/-- The rows of a square matrix are orthonormal if its columns are. -/
theorem turn_turnBack (v : Vec3 ℝ) : t.turn (t.turnBack v) = v := by
  have restored : t.columns.mulVec (t.columns.transpose.mulVec ![v.x, v.y, v.z]) = ![v.x, v.y, v.z] := by
    rw [Matrix.mulVec_mulVec, mul_eq_one_comm.mp t.transpose_mul_columns, Matrix.one_mulVec]
  apply Vec3.ext
  · simpa [columns, Matrix.mulVec, dotProduct, Fin.sum_univ_three, turn, turnBack, Vec3.inner] using
      congrFun restored 0
  · simpa [columns, Matrix.mulVec, dotProduct, Fin.sum_univ_three, turn, turnBack, Vec3.inner] using
      congrFun restored 1
  · simpa [columns, Matrix.mulVec, dotProduct, Fin.sum_univ_three, turn, turnBack, Vec3.inner] using
      congrFun restored 2

theorem inner_turn_turn (l m : Vec3 ℝ) : (t.turn l).inner (t.turn m) = l.inner m := by
  rw [inner_turn, Vec3.inner_comm _ t.first, Vec3.inner_comm _ t.second, Vec3.inner_comm _ t.third]
  exact congrArg (Vec3.inner · m) (t.turnBack_turn l)

theorem length_turn (l : Vec3 ℝ) : (t.turn l).length = l.length := by
  rw [Vec3.length_eq_sqrt_inner, inner_turn_turn, Vec3.length_eq_sqrt_inner]

theorem length_turnBack (v : Vec3 ℝ) : (t.turnBack v).length = v.length := by
  rw [← t.length_turn, turn_turnBack]

theorem turnBack_scaled (k : ℝ) (v : Vec3 ℝ) : t.turnBack (v.scaled k) = (t.turnBack v).scaled k := by
  apply Vec3.ext <;> simp only [turnBack, Vec3.scaled, Vec3.inner] <;> ring

/-- The matrix with the axes as columns. -/
noncomputable def matrix : Mat3 Exact := .ofColumns t.first.exact t.second.exact t.third.exact

theorem matrix_apply (l : Vec3 ℝ) : t.matrix.apply l.exact = (t.turn l).exact := rfl

theorem transpose_apply (v : Vec3 ℝ) : t.matrix.transpose.apply v.exact = (t.turnBack v).exact := rfl

end Triad

/-- A matrix with orthonormal columns. -/
def Mat3.Orthogonal {α : Type} [Scalar α] (m : Mat3 α) : Prop := m.transpose.mul m = .identity

theorem Triad.orthogonal_matrix (t : Triad) : t.matrix.Orthogonal := by
  have products : t.matrix.transpose.mul t.matrix =
      ⟨⟨real (t.first.inner t.first), real (t.second.inner t.first), real (t.third.inner t.first)⟩,
        ⟨real (t.first.inner t.second), real (t.second.inner t.second), real (t.third.inner t.second)⟩,
        ⟨real (t.first.inner t.third), real (t.second.inner t.third), real (t.third.inner t.third)⟩⟩ := rfl
  rw [Mat3.Orthogonal, products, t.second.inner_comm t.first, t.third.inner_comm t.first,
    t.third.inner_comm t.second, t.unit_first, t.unit_second, t.unit_third, t.first_second, t.first_third,
    t.second_third]
  simp [Mat3.identity, Vec3.unitX, Vec3.unitY, Vec3.unitZ]

theorem Mat3.Orthogonal.exists_triad {m : Mat3 Exact} (orthogonal : m.Orthogonal) : ∃ t : Triad, m = t.matrix := by
  let u : Vec3 Exact := ⟨m.row₁.x, m.row₂.x, m.row₃.x⟩
  let v : Vec3 Exact := ⟨m.row₁.y, m.row₂.y, m.row₃.y⟩
  let w : Vec3 Exact := ⟨m.row₁.z, m.row₂.z, m.row₃.z⟩
  have products : (⟨⟨u.dot u, v.dot u, w.dot u⟩, ⟨u.dot v, v.dot v, w.dot v⟩,
    ⟨u.dot w, v.dot w, w.dot w⟩⟩ : Mat3 Exact) =
      .identity := orthogonal
  simp only [identity, Vec3.unitX, Vec3.unitY, Vec3.unitZ, Mat3.mk.injEq, Vec3.mk.injEq, Exact.ofNat_eq,
    Nat.cast_zero, Nat.cast_one] at products
  obtain ⟨⟨uu, -, -⟩, ⟨uv, vv, -⟩, uw, vw, ww⟩ := products
  obtain ⟨first, isFirst⟩ := Vec3.exists_exact_of_dot_self uu
  obtain ⟨second, isSecond⟩ := Vec3.exists_exact_of_dot_self vv
  obtain ⟨third, isThird⟩ := Vec3.exists_exact_of_dot_self ww
  rw [isFirst, Vec3.exact_dot] at uu
  rw [isSecond, Vec3.exact_dot] at vv
  rw [isThird, Vec3.exact_dot] at ww
  rw [isFirst, isSecond, Vec3.exact_dot] at uv
  rw [isFirst, isThird, Vec3.exact_dot] at uw
  rw [isSecond, isThird, Vec3.exact_dot] at vw
  refine ⟨⟨first, second, third, real.inj uu, real.inj vv, real.inj ww, real.inj uv, real.inj uw, real.inj vw⟩, ?_⟩
  rw [Triad.matrix, ← isFirst, ← isSecond, ← isThird]
  rfl

end SphereMotion
