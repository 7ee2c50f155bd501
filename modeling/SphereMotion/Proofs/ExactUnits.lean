import Mathlib
import SphereMotion.Proofs.Halves
import SphereMotion.Proofs.RealValues

namespace SphereMotion

open Scalar

variable {α : Type} [Scalar α] [RealValued α]

/-- A scalar that counts `m` units of `2 ^ (-j)`. -/
structure Scalar.Counts (x : α) (j : Nat) (m : ℤ) : Prop where
  value : RealValued.value x = .real (m / 2 ^ j)
  few : |m| ≤ 2 ^ 53
  fine : j ≤ 1074

namespace Scalar.Counts

variable {x y : α} {j k : Nat} {m n : ℤ}

/-- What an operation gives if its true result is a number of units. -/
theorem of_gives {r : ℝ} (gives : (RealValued.arithmetic α).Gives r (RealValued.value x)) (quotient : r = m / 2 ^ j)
    (few : |m| ≤ 2 ^ 53) (fine : j ≤ 1074) : Counts x j m := by
  subst quotient
  refine ⟨gives.eq_real (.of_isFloat (.div_two_pow few fine)) ?_, few, fine⟩
  have few' : |(m : ℝ)| ≤ 2 ^ 53 := by exact_mod_cast few
  rw [abs_div, abs_of_pos (by positivity : (0 : ℝ) < 2 ^ j)]
  calc |(m : ℝ)| / 2 ^ j ≤ |(m : ℝ)| := div_le_self (abs_nonneg _) (one_le_pow₀ (by norm_num))
    _ ≤ 2 ^ 53 := few'
    _ < 2 ^ 1023 := pow_lt_pow_right₀ (by norm_num) (by norm_num)

theorem ofInt (few : |n| ≤ 2 ^ 53) : Counts (Scalar.ofInt n : α) 0 n :=
  of_gives (RealValued.ofInt n) (by simp) few (by norm_num)

theorem of_eq (counts : Counts x j m) (units : j = k) (same : m = n) : Counts x k n := units ▸ same ▸ counts

/-- Finer units. -/
theorem refine (counts : Counts x j m) (k : Nat) (few : |m * 2 ^ k| ≤ 2 ^ 53) (fine : j + k ≤ 1074) :
    Counts x (j + k) (m * 2 ^ k) := by
  refine ⟨?_, few, fine⟩
  rw [counts.value, pow_add]
  push_cast
  congr 1
  field_simp

theorem refine_natCast {m : Nat} (counts : Counts x j m) (k : Nat) (few : m * 2 ^ k ≤ 2 ^ 53)
    (fine : j + k ≤ 1074) :
    Counts x (j + k) (m * 2 ^ k : Nat) := by
  have cast : ((m * 2 ^ k : Nat) : ℤ) = m * 2 ^ k := by push_cast; rfl
  rw [cast]
  exact counts.refine k (by rw [← cast, Nat.abs_cast]; exact_mod_cast few) fine

/-- Units that come in blocks of a larger one. -/
theorem coarsen (counts : Counts x (j + k) (m * 2 ^ k)) : Counts x j m := by
  have fine := counts.fine
  have power : (1 : ℤ) ≤ 2 ^ k := one_le_pow₀ (by norm_num)
  refine ⟨?_, ?_, by omega⟩
  · rw [counts.value, pow_add]
    push_cast
    congr 1
    field_simp
  · calc |m| ≤ |m| * 2 ^ k := le_mul_of_one_le_right (abs_nonneg m) power
      _ = |m * 2 ^ k| := by rw [abs_mul, abs_of_pos (by positivity : (0 : ℤ) < 2 ^ k)]
      _ ≤ 2 ^ 53 := counts.few

theorem add (left : Counts x j m) (right : Counts y j n) (few : |m + n| ≤ 2 ^ 53) : Counts (x + y) j (m + n) :=
  of_gives (RealValued.add left.value right.value) (by push_cast; ring) few left.fine

theorem sub (left : Counts x j m) (right : Counts y j n) (few : |m - n| ≤ 2 ^ 53) : Counts (x - y) j (m - n) :=
  of_gives (RealValued.sub left.value right.value) (by push_cast; ring) few left.fine

/-- Whole units times a whole number. -/
theorem mul_ofInt (left : Counts x j m) (right : Counts y 0 n) (few : |m * n| ≤ 2 ^ 53) :
    Counts (x * y) j (m * n) :=
  of_gives (RealValued.mul left.value right.value) (by push_cast; field_simp) few left.fine

/-- Times a power of two, units become larger ones. -/
theorem mul_two_pow (left : Counts x (j + k) m) (right : Counts y 0 (2 ^ k)) : Counts (x * y) j m := by
  have fine := left.fine
  refine of_gives (RealValued.mul left.value right.value) ?_ left.few (by omega)
  rw [pow_add]
  push_cast
  field_simp

/-- Divided by a power of two, units become smaller ones. -/
theorem div_two_pow (left : Counts x j m) (right : Counts y 0 (2 ^ k)) (fine : j + k ≤ 1074) :
    Counts (x / y) (j + k) m := by
  refine of_gives (RealValued.div left.value right.value (by positivity)) ?_ left.few fine
  rw [pow_add]
  push_cast
  field_simp

/-- A halved number counts halves. -/
theorem half {n : Nat} (few : n ≤ 2 ^ 53) : Counts (Scalar.half n : α) 1 n := by
  have whole : Counts (Scalar.ofInt n : α) 0 n := .ofInt (by rw [Nat.abs_cast]; exact_mod_cast few)
  exact whole.div_two_pow (k := 1) (.ofInt (by norm_num)) (by norm_num)

theorem two_pow {k : Nat} (small : k ≤ 53) : Counts (Scalar.ofInt (2 ^ k : Nat) : α) 0 (2 ^ k) := by
  have power : (2 : ℤ) ^ k ≤ 2 ^ 53 := pow_le_pow_right₀ (by norm_num) small
  push_cast
  exact .ofInt (by rwa [abs_of_pos (by positivity)])

theorem nearest (counts : Counts x 0 m) : Scalar.nearest x = .whole m := by
  rw [RealValued.nearest_eq, counts.value, pow_zero, div_one]
  exact congrArg Nearest.whole (halfAway_intCast m)

theorem isUndefined (counts : Counts x j m) : Scalar.isUndefined x = false := by
  rw [← Bool.not_eq_true, RealValued.isUndefined_iff, counts.value]
  exact nofun

end Scalar.Counts

end SphereMotion
