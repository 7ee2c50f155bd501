import Mathlib
import SphereMotion.Proofs.ValueOrder

namespace SphereMotion

open Scalar

namespace IsFloat

variable {x y : ℝ}

/-- A multiple of the unit of a float is a float if it is not longer. -/
theorem of_multiple {k m e : ℤ} (short : |(k : ℝ) * 2 ^ e| ≤ |(m : ℝ) * 2 ^ e|) (small : |m| < 2 ^ 53)
    (least : -1074 ≤ e) :
    IsFloat (k * 2 ^ e) := by
  rw [abs_mul, abs_mul] at short
  have mantissa : |(k : ℝ)| ≤ |(m : ℝ)| := le_of_mul_le_mul_right short (abs_pos.mpr (zpow_ne_zero e two_ne_zero))
  have mantissa' : |k| ≤ |m| := by exact_mod_cast mantissa
  exact ⟨k, e, mantissa'.trans_lt small, least, rfl⟩

/-- A difference of floats that is not longer than either is a float: it counts the smaller of their units. -/
theorem sub (left : IsFloat x) (right : IsFloat y) (short : |x - y| ≤ |x|) (short' : |x - y| ≤ |y|) :
    IsFloat (x - y) := by
  have multiple {m n e d : ℤ} (order : e ≤ d) :
      (m : ℝ) * 2 ^ e - n * 2 ^ d = (m - n * 2 ^ (d - e).toNat : ℤ) * 2 ^ e := by
    rw [two_zpow_eq_mul order]
    push_cast
    ring
  obtain ⟨m, e, small, least, rfl⟩ := left
  obtain ⟨n, d, small', least', rfl⟩ := right
  rcases le_total e d with order | order
  · rw [multiple order] at short ⊢
    exact of_multiple short small least
  · rw [← neg_sub, abs_neg, multiple order] at short'
    rw [← neg_sub, multiple order]
    exact (of_multiple short' small' least').neg

end IsFloat

/-- Numbers of which neither is more than twice the other can be taken from each other without rounding. -/
theorem Arithmetic.Holds.sub {a : Arithmetic} {x y : ℝ} (left : a.Holds x) (right : a.Holds y) (lower : y ≤ 2 * x)
    (upper : x ≤ 2 * y) : a.Holds (x - y) := by
  cases a with
  | exact => trivial
  | binary64 =>
    have nonneg : 0 ≤ x := by linarith
    have nonneg' : 0 ≤ y := by linarith
    apply IsFloat.sub left right
    · rw [abs_of_nonneg nonneg, abs_le]
      constructor <;> linarith
    · rw [abs_of_nonneg nonneg', abs_le]
      constructor <;> linarith

namespace Exact

theorem truncate_neg (x : ℝ) : truncate (-x) = -truncate x := by
  rcases lt_trichotomy x 0 with negative | rfl | positive
  · rw [truncate, truncate, if_pos (by linarith), if_neg (by linarith), Int.floor_neg]
  · simp [truncate]
  · rw [truncate, truncate, if_neg (by linarith), if_pos positive.le, Int.ceil_neg]

theorem truncate_of_nonneg {x : ℝ} (nonneg : 0 ≤ x) : (truncate x : ℝ) = ⌊x⌋₊ := by
  rw [truncate, if_pos nonneg]
  exact_mod_cast (Int.natCast_floor_eq_floor nonneg).symm

theorem abs_sub_truncate_lt (x : ℝ) : |x - truncate x| < 1 := by
  rw [truncate, abs_lt]
  split
  · constructor <;> linarith [Int.floor_le x, Int.lt_floor_add_one x]
  · constructor <;> linarith [Int.le_ceil x, Int.ceil_lt_add_one x]

end Exact

namespace Binary64

open Float.Model UnpackedFloat

variable {s : Sign} {u v : UnpackedFloat} {a b : ℝ}

/-- The remainder of the magnitudes. -/
theorem remNat_mul_zpow (m : Nat) (e : Int) (n : Nat) (d : Int) :
    (Double.remNat m e n d : ℝ) * 2 ^ min e d = m * 2 ^ e - n * 2 ^ d * ⌊(m : ℝ) * 2 ^ e / (n * 2 ^ d)⌋₊ := by
  rw [Double.remNat, ← shiftLeft_mul_zpow m (min_le_left e d), ← shiftLeft_mul_zpow n (min_le_right e d),
    mul_div_mul_right _ _ (zpow_ne_zero _ two_ne_zero), Nat.floor_div_eq_div]
  generalize m <<< (e - min e d).toNat = dividend
  generalize n <<< (d - min e d).toNat = divisor
  have parts : (dividend : ℝ) = divisor * (dividend / divisor : Nat) + (dividend % divisor : Nat) := by
    exact_mod_cast (Nat.div_add_mod dividend divisor).symm
  linear_combination -(2 : ℝ) ^ min e d * parts

/-- The remainder has no more digits than the operand with the smaller unit. -/
theorem remNat_lt {m : Nat} {e : Int} {n : Nat} {d : Int} (holds : Holds m e) (holds' : Holds n d)
    (positive : 0 < n) :
    Double.remNat m e n d < 2 ^ 53 := by
  have kept {k : Nat} (i : Int) : k <<< (i - i).toNat = k := by simp
  rw [Double.remNat]
  rcases le_total e d with order | order
  · rw [min_eq_left order, kept e]
    exact (Nat.mod_le _ _).trans_lt holds.1
  · rw [min_eq_right order, kept d]
    exact (Nat.mod_lt _ positive).trans holds'.1

theorem roundsTo_normalize_apply (s : Sign) (k : Nat) (e : Int) :
    RoundsTo s (k * 2 ^ e) (UnpackedFloat.normalize .binary64 (s.apply k) e s) := by
  rw [UnpackedFloat.normalize]
  rcases Nat.eq_zero_or_pos k with rfl | positive
  · have none : s.apply ((0 : Nat) : Int) = 0 := by cases s <;> rfl
    rw [none, compare_eq_iff_eq.mpr rfl, Nat.cast_zero, zero_mul]
    exact .zero (.of_holds (.of_isFloat (by exact_mod_cast IsFloat.intCast (n := 0) (by norm_num))))
  · cases s with
    | negative =>
      have below : Sign.negative.apply k < 0 := by
        change -(k : Int) < 0
        omega
      have magnitude : (-Sign.negative.apply k).toNat = k := by
        change (- -(k : Int)).toNat = k
        omega
      rw [compare_lt_iff_lt.mpr below, magnitude]
      exact roundsTo_round .negative positive e
    | positive =>
      have above : 0 < Sign.positive.apply k := by
        change 0 < (k : Int)
        omega
      rw [compare_gt_iff_gt.mpr above]
      exact roundsTo_round .positive positive e

end Binary64

namespace Double

open Float.Model UnpackedFloat Binary64

variable {x y : Double} {s : Sign} {a b : ℝ}

theorem payload_rem (payload : x.payload = 0) (y : Double) : (Scalar.rem x y).payload = 0 := by
  change (x.rem y).payload = 0
  rw [rem]
  split <;> first | rfl | exact payload

/-- The remainder has the sign of the dividend. -/
theorem number_rem (left : Number s x.value.toModel.unpack a)
    (right : Number .positive y.value.toModel.unpack b) (positive : 0 < b) (small : b ≤ 2 ^ 1023) :
    Number s (Scalar.rem x y).value.toModel.unpack (a - b * ⌊a / b⌋₊) := by
  change Number s (x.rem y).value.toModel.unpack _
  have below : a - b * ⌊a / b⌋₊ < 2 ^ 1023 := by
    have less := (div_lt_iff₀' positive).mp (Nat.lt_floor_add_one (a / b))
    rw [mul_add_one] at less
    exact (sub_lt_iff_lt_add'.mpr less).trans_le small
  generalize dividend : x.value.toModel.unpack = u at left
  generalize divisor : y.value.toModel.unpack = v at right
  cases right with
  | zero => exact absurd positive (lt_irrefl 0)
  | @finite n d positive' holds' =>
    cases left with
    | zero =>
      have itself : x.rem y = x := by simp only [rem, dividend, divisor]
      rw [itself, dividend, zero_div, Nat.floor_zero, Nat.cast_zero, mul_zero, sub_zero]
      exact .zero
    | @finite m e positive'' holds =>
      have rest : x.rem y = ofFloat (Float.ofModel (pack
          (.normalize .binary64 (s.apply (remNat m e n d)) (min e d) s))) := by
        simp only [rem, dividend, divisor]
      rw [← remNat_mul_zpow] at below
      rw [rest, ← remNat_mul_zpow]
      have digits : |((remNat m e n d : Nat) : Int)| ≤ 2 ^ 53 := by
        rw [Nat.abs_cast]
        exact_mod_cast (remNat_lt holds holds' positive').le
      have float := IsFloat.of_abs_le digits (le_min holds.2.1 holds'.2.1)
      rw [Int.cast_natCast] at float
      exact (roundsTo_normalize_apply s _ _).unpack_pack.number float below

theorem number_of_pos (right : RealValued.value y = .real b) (positive : 0 < b) :
    Number .positive y.value.toModel.unpack b := by
  obtain ⟨t, d, number, rfl⟩ := exists_number right
  cases t with
  | positive => exact number
  | negative => exact absurd positive (not_lt.mpr (neg_nonpos.mpr number.nonneg))

theorem value_rem (left : RealValued.value x = .real a) (right : RealValued.value y = .real b) (positive : 0 < b)
    (small : b ≤ 2 ^ 1023) : RealValued.value (Scalar.rem x y) = .real (a - b * Exact.truncate (a / b)) := by
  obtain ⟨s, c, number, rfl⟩ := exists_number left
  refine (number_rem number (number_of_pos right positive) positive small).extended_eq.trans
    (congrArg Extended.real ?_)
  have quotient := Exact.truncate_of_nonneg (div_nonneg number.nonneg positive.le)
  cases s with
  | positive => simp only [signed, quotient]
  | negative =>
    simp only [signed, neg_div, Exact.truncate_neg, Int.cast_neg, quotient]
    ring

/-- A double shorter than the divisor is left as it is. -/
theorem rem_of_abs_lt (left : RealValued.value x = .real a) (right : RealValued.value y = .real b) (short : |a| < b)
    (small : b ≤ 2 ^ 1023) (payload : x.payload = 0) : Scalar.rem x y = x := by
  have positive := (abs_nonneg a).trans_lt short
  obtain ⟨s, c, number, rfl⟩ := exists_number left
  have rest := number_rem number (number_of_pos right positive) positive small
  have magnitude : |signed s c| = c := by
    cases s with
    | positive => exact abs_of_nonneg number.nonneg
    | negative => exact (abs_neg c).trans (abs_of_nonneg number.nonneg)
  rw [magnitude] at short
  rw [Nat.floor_eq_zero.mpr ((div_lt_one positive).mpr short), Nat.cast_zero, mul_zero, sub_zero] at rest
  exact eq_of_number rest number ((payload_rem payload y).trans payload.symm)

end Double

end SphereMotion
