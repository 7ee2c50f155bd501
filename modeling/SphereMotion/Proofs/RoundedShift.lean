import Mathlib
import SphereMotion.Proofs.RealValues

namespace SphereMotion

/-- Rounding a difference in units of `2 ^ (-k)` before or after a whole number is taken off: `t` and `d` are the
values that arithmetic gives to the two differences. -/
structure SameShift (a : Arithmetic) (x o : ℝ) (n : Nat) (k : Nat) (t d : ℝ) : Prop where
  corner : a.Rounds (x - o) t
  shift : a.Rounds (x - (n + o)) d
  cornerFits : FitsWord t k
  shiftFits : FitsWord d k

namespace Arithmetic.Rounds

variable {a : Arithmetic} {x r : ℝ} {k : Nat}

theorem abs_le_of_fits (rounds : a.Rounds x r) (fine : k < 31) (fits : FitsWord r k) :
    |x| ≤ 2 ^ (32 - k : ℤ) := by
  have near := abs_le.mp (abs_halfAway_sub_le (r * 2 ^ k))
  have lower : (-2 ^ 31 : ℝ) ≤ halfAway (r * 2 ^ k) := by exact_mod_cast fits.lower
  have upper : (halfAway (r * 2 ^ k) : ℝ) < 2 ^ 31 := by exact_mod_cast fits.upper
  have unit : (0 : ℝ) < 2 ^ k := by positivity
  have bound : (2 : ℝ) ^ (32 - k : ℤ) * 2 ^ k = 2 ^ 32 := by
    rw [← zpow_natCast, ← zpow_add₀ (by norm_num)]
    norm_num
  have holds : a.Holds (2 ^ (32 - k : ℤ)) := .of_isFloat (.two_zpow (by omega))
  rw [abs_le]
  constructor <;> by_contra beyond
  · have reached := rounds.ge_of_ge holds.neg (not_le.mp beyond).le
    nlinarith
  · have reached := rounds.le_of_le holds (not_le.mp beyond).le
    nlinarith

theorem abs_le_two_pow_of_fits (rounds : a.Rounds x r) (fine : k < 31) (fits : FitsWord r k) : |x| ≤ 2 ^ 32 := by
  have power : (2 : ℝ) ^ (32 - k : ℤ) ≤ 2 ^ (32 : ℤ) := zpow_le_zpow_right₀ (by norm_num) (by omega)
  exact (rounds.abs_le_of_fits fine fits).trans (by exact_mod_cast power)

/-- A result that fits 32 bits in units of `2 ^ (-k)` is off by much less than the unit. -/
theorem abs_sub_mul_lt_of_fits (rounds : a.Rounds x r) (fine : k < 31) (fits : FitsWord r k) :
    |(r - x) * 2 ^ k| < 1 / 4 := by
  have unit : (0 : ℝ) < 2 ^ k := by positivity
  have error := mul_le_mul_of_nonneg_right (rounds.abs_sub_le (rounds.abs_le_of_fits fine fits) (by omega)) unit.le
  have scale : (2 : ℝ) ^ (32 - k - 54 : ℤ) * 2 ^ k = 2 ^ (-22 : ℤ) := by
    rw [← zpow_natCast, ← zpow_add₀ (by norm_num)]
    congr 1
    omega
  rw [scale] at error
  rw [abs_mul, abs_of_pos unit]
  exact error.trans_lt (by norm_num)

end Arithmetic.Rounds

namespace SameShift

variable {a : Arithmetic} {x o : ℝ} {n k : Nat} {t d : ℝ}

theorem abs_sub_le (same : SameShift a x o n k t d) (fine : k < 31) :
    |halfAway (t * 2 ^ k) - n * 2 ^ k - halfAway (d * 2 ^ k)| ≤ 1 := by
  have unit : (0 : ℝ) < 2 ^ k := by positivity
  have errorT := same.corner.abs_sub_mul_lt_of_fits fine same.cornerFits
  have errorD := same.shift.abs_sub_mul_lt_of_fits fine same.shiftFits
  have nearT := abs_le.mp (abs_halfAway_sub_le (t * 2 ^ k))
  have nearD := abs_le.mp (abs_halfAway_sub_le (d * 2 ^ k))
  have errors : |t * 2 ^ k - n * 2 ^ k - d * 2 ^ k| < 1 / 2 := by
    have difference : t * 2 ^ k - n * 2 ^ k - d * 2 ^ k =
        (t - (x - o)) * 2 ^ k - (d - (x - (n + o))) * 2 ^ k := by ring
    rw [difference]
    exact (abs_sub _ _).trans_lt (by linarith)
  rw [abs_lt] at errors
  have upper : (halfAway (t * 2 ^ k) : ℝ) - n * 2 ^ k - halfAway (d * 2 ^ k) < 2 := by linarith
  have lower : (-2 : ℝ) < halfAway (t * 2 ^ k) - n * 2 ^ k - halfAway (d * 2 ^ k) := by linarith
  have upper' : halfAway (t * 2 ^ k) - n * 2 ^ k - halfAway (d * 2 ^ k) < 2 := by exact_mod_cast upper
  have lower' : -2 < halfAway (t * 2 ^ k) - n * 2 ^ k - halfAway (d * 2 ^ k) := by exact_mod_cast lower
  rw [abs_le]
  omega

theorem eq_of_exact (same : SameShift .exact x o n k t d) (noHalf : ∀ m : ℤ, d * 2 ^ k ≠ m + 1 / 2) :
    halfAway (t * 2 ^ k) - n * 2 ^ k = halfAway (d * 2 ^ k) := by
  have shifted : t * 2 ^ k = d * 2 ^ k + (n * 2 ^ k : ℤ) := by
    rw [same.corner.eq_of_exact, same.shift.eq_of_exact]
    push_cast
    ring
  rw [shifted, halfAway_add_intCast noHalf, add_sub_cancel_right]

theorem middle_lt_of_halfAway {y : ℝ} (word : halfAway y = -2 ^ 31) : -(2 ^ 31 + 1 / 2) < y := by
  have near := (abs_le.mp (abs_halfAway_sub_le y)).2
  rw [word] at near
  push_cast at near
  refine lt_of_le_of_ne (by linarith) fun middle => ?_
  have away : halfAway (2 ^ 31 + 1 / 2) = 2 ^ 31 + 1 := by
    rw [halfAway, if_pos (by norm_num)]
    norm_num
  rw [← middle, halfAway_neg, away] at word
  omega

/-- A float above the middle between two words keeps a distance from it. -/
theorem middle_add_le {d : ℝ} (float : IsFloat d) (above : -(2 ^ 31 + 1 / 2) < d * 2 ^ k) :
    -(2 ^ 31 + 1 / 2) + 1 / 2 ^ 21 ≤ d * 2 ^ k := by
  by_cases large : (2 : ℝ) ^ 31 ≤ |d * 2 ^ k|
  · obtain ⟨m, multiple⟩ := (float.mul_two_pow k).exists_eq_mul (j := -21)
      (by rw [show (-21 : ℤ) + 52 = (31 : Nat) from rfl, zpow_natCast]; exact large)
    have scale : d * 2 ^ k * 2 ^ 21 = m := by
      rw [multiple, zpow_neg]
      exact inv_mul_cancel_right₀ (by norm_num) _
    have above' : (-(2 ^ 32 + 1) * 2 ^ 20 : ℝ) < m := by linarith
    have above'' : (-(2 ^ 32 + 1) * 2 ^ 20 : ℤ) < m := by exact_mod_cast above'
    have next : (-(2 ^ 32 + 1) * 2 ^ 20 + 1 : ℤ) ≤ m := above''
    have next' : (-(2 ^ 32 + 1) * 2 ^ 20 + 1 : ℝ) ≤ m := by exact_mod_cast next
    linarith
  · have small := (abs_lt.mp (not_le.mp large)).1
    norm_num at small ⊢
    linarith

/-- If the shift is above the middle between two words, so is the corner above the middle between those in its
place: the shift is nearer to its double than to the middle, and not too near to it. -/
theorem middle_lt_corner (same : SameShift .binary64 x o n k t d) (fine : k < 31) (positive : (0 : ℤ) < n * 2 ^ k)
    (range : (n * 2 ^ k : ℤ) ≤ 2 ^ 32) (above : -(2 ^ 31 + 1 / 2) < d * 2 ^ k) :
    n * 2 ^ k - (2 ^ 31 + 1 / 2) < t * 2 ^ k := by
  have unit : (0 : ℝ) < 2 ^ k := by positivity
  have middle : IsFloat (-(2 ^ 31 + 1 / 2) / 2 ^ k) := by
    have float := IsFloat.div_two_pow (m := -(2 ^ 32 + 1)) (j := 1 + k) (by norm_num) (by omega)
    have value : ((-(2 ^ 32 + 1) : ℤ) : ℝ) / 2 ^ (1 + k) = -(2 ^ 31 + 1 / 2) / 2 ^ k := by
      rw [pow_add]
      push_cast
      field_simp
      norm_num
    rwa [value] at float
  have candidate : IsFloat ((n * 2 ^ k - (2 ^ 31 + 1 / 2) + 1 / 2 ^ 22) / 2 ^ k) := by
    have float := IsFloat.div_two_pow (m := (n * 2 ^ k - 2 ^ 31) * 2 ^ 22 - 2 ^ 21 + 1) (j := 22 + k)
      (by rw [abs_le]; constructor <;> linarith) (by omega)
    have value : (((n * 2 ^ k - 2 ^ 31) * 2 ^ 22 - 2 ^ 21 + 1 : ℤ) : ℝ) / 2 ^ (22 + k) =
        (n * 2 ^ k - (2 ^ 31 + 1 / 2) + 1 / 2 ^ 22) / 2 ^ k := by
      rw [pow_add]
      push_cast
      field_simp
      ring
    rwa [value] at float
  have next := middle_add_le same.shift.holds above
  have halfway : -(2 ^ 31 + 1 / 2) / 2 ^ k + d ≤ 2 * (x - (n + o)) :=
    same.shift.add_le_of_lt middle (by rwa [div_lt_iff₀ unit])
  have beneath : (n * 2 ^ k - (2 ^ 31 + 1 / 2) + 1 / 2 ^ 22) / 2 ^ k ≤ x - o := by
    rw [div_le_iff₀ unit]
    have scaled := mul_le_mul_of_nonneg_right halfway unit.le
    rw [add_mul, div_mul_cancel₀ _ unit.ne'] at scaled
    linarith
  have reached := same.corner.le_of_le (.of_isFloat candidate) beneath
  rw [div_le_iff₀ unit] at reached
  norm_num at reached ⊢
  linarith

/-- The rounded corner is not more than 31 bits to the left of the unmoved one if the rounded shift is not. -/
theorem neg_le (same : SameShift a x o n k t d) (fine : k < 31) : -2 ^ 31 ≤ halfAway (t * 2 ^ k) - n * 2 ^ k := by
  by_contra beyond
  have close := abs_le.mp (same.abs_sub_le fine)
  have shiftFits := same.shiftFits.lower
  obtain ⟨cornerLower, cornerUpper⟩ := same.cornerFits
  have corner : halfAway (t * 2 ^ k) = n * 2 ^ k - 2 ^ 31 - 1 := by omega
  have shift : halfAway (d * 2 ^ k) = -2 ^ 31 := by omega
  have above := middle_lt_of_halfAway shift
  have near := (abs_le.mp (abs_halfAway_sub_le (t * 2 ^ k))).1
  rw [corner] at near cornerLower cornerUpper
  push_cast at near
  cases a with
  | exact =>
    rw [same.corner.eq_of_exact] at near
    rw [same.shift.eq_of_exact] at above
    linarith
  | binary64 =>
    have cornerAbove := same.middle_lt_corner fine (by omega) (by omega) above
    linarith

end SameShift

end SphereMotion
