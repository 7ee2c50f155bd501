import Mathlib
import SphereMotion.Proofs.Binary64
import SphereMotion.Proofs.RealValues

namespace SphereMotion.Binary64

open Float.Model UnpackedFloat

/-- What a mantissa and its residual bits tell of a real number: the whole part, and how the rest compares to
nothing and to what it lacks to one. -/
def Brackets (em : ExtendedMantissa) (y : ℝ) : Prop :=
  match em.roundBit, em.stickyBit with
  | false, false => y = em.mantissa
  | false, true => em.mantissa < y ∧ y - em.mantissa < em.mantissa + 1 - y
  | true, false => y - em.mantissa = em.mantissa + 1 - y
  | true, true => em.mantissa + 1 - y < y - em.mantissa ∧ y < em.mantissa + 1

namespace Brackets

variable {em : ExtendedMantissa} {y : ℝ}

theorem mantissa_le (brackets : Brackets em y) : em.mantissa ≤ y ∧ y < em.mantissa + 1 := by
  obtain ⟨m, half, rest⟩ := em
  cases half <;> cases rest <;> simp only [Brackets] at brackets ⊢ <;> constructor <;> linarith

theorem abs_roundedMantissa_sub_le (brackets : Brackets em y) : |em.roundedMantissa - y| ≤ 1 / 2 := by
  obtain ⟨m, half, rest⟩ := em
  have even : ((m % 2 : Nat) : ℝ) = 0 ∨ ((m % 2 : Nat) : ℝ) = 1 := by
    rcases Nat.mod_two_eq_zero_or_one m with zero | one
    · simp [zero]
    · simp [one]
  rw [abs_le]
  cases half <;> cases rest <;>
    simp only [Brackets, ExtendedMantissa.roundedMantissa, ExtendedMantissa.accuracy,
      Accuracy.roundToNearestEven] at brackets ⊢ <;> push_cast
  case true.false => rcases even with zero | one <;> constructor <;> linarith
  all_goals constructor <;> linarith

theorem shiftRightOne (brackets : Brackets em y) : Brackets em.shiftRightOne (y / 2) := by
  obtain ⟨m, half, rest⟩ := em
  have parts : ((m : Nat) : ℝ) = 2 * (m / 2 : Nat) + (m % 2 : Nat) := by exact_mod_cast (Nat.div_add_mod m 2).symm
  rcases Nat.mod_two_eq_zero_or_one m with even | odd
  · cases half <;> cases rest <;> simp [Brackets, ExtendedMantissa.shiftRightOne, even] at brackets parts ⊢ <;>
      grind
  · cases half <;> cases rest <;> simp [Brackets, ExtendedMantissa.shiftRightOne, odd] at brackets parts ⊢ <;>
      grind

theorem shiftRight (brackets : Brackets em y) (k : Nat) : Brackets (em >>> k) (y / 2 ^ k) := by
  induction k with
  | zero =>
    rw [pow_zero, div_one]
    exact brackets
  | succ k ih =>
    rw [pow_succ, ← div_div]
    exact ih.shiftRightOne

end Brackets

/-- A nearest whole number is a nearest multiple of the unit that it counts, and a nearest float if the unit is the
least one or the number has all of 53 digits. -/
theorem rounds_of_mantissa {y : ℝ} {n : Nat} {t : ℤ} (near : |n - y| ≤ 1 / 2) (small : n ≤ 2 ^ 53)
    (least : -1074 ≤ t) (normal : t = -1074 ∨ 2 ^ 52 ≤ y) :
    Arithmetic.binary64.Rounds (y * 2 ^ t) (n * 2 ^ t) := by
  have unit : (0 : ℝ) < 2 ^ t := zpow_pos (by norm_num) t
  have whole (i : ℤ) : |n - y| ≤ |i - y| := by
    by_cases same : i = n
    · rw [same, Int.cast_natCast]
    · have apart : (1 : ℝ) ≤ |(i : ℝ) - n| := by exact_mod_cast Int.one_le_abs (sub_ne_zero.mpr same)
      have between := abs_sub_le (i : ℝ) y n
      rw [abs_sub_comm y] at between
      linarith
  have scaled (z : ℝ) : |z * 2 ^ t - y * 2 ^ t| = |z - y| * 2 ^ t := by rw [← sub_mul, abs_mul, abs_of_pos unit]
  refine ⟨?_, fun {s} float => ?_⟩
  · exact_mod_cast IsFloat.of_abs_le (m := n) (by rw [Nat.abs_cast]; exact_mod_cast small) least
  obtain ⟨m, e, short, above, rfl⟩ := float
  rw [scaled]
  by_cases coarse : t ≤ e
  · have multiple : (m : ℝ) * 2 ^ e = (m * 2 ^ (e - t).toNat : ℤ) * 2 ^ t := by
      push_cast
      rw [mul_assoc, ← zpow_natCast, ← zpow_add₀ (by norm_num)]
      congr 2
      omega
    rw [multiple, scaled]
    exact mul_le_mul_of_nonneg_right (whole _) unit.le
  -- A float with a finer unit is below all numbers of 53 digits.
  · have full : (2 : ℝ) ^ 52 ≤ y := normal.resolve_left (by omega)
    have factor : (2 : ℝ) ^ e * 2 ≤ 2 ^ t := by
      rw [← zpow_add_one₀ (by norm_num)]
      exact zpow_le_zpow_right₀ (by norm_num) (by omega)
    have short' : (m : ℝ) < 2 ^ 53 := by exact_mod_cast (abs_lt.mp short).2
    have below : (m : ℝ) * 2 ^ e ≤ 2 ^ 52 * 2 ^ t := by
      have positive : (0 : ℝ) < 2 ^ e := zpow_pos (by norm_num) e
      nlinarith
    have reaches : (2 : ℝ) ^ 52 * 2 ^ t ≤ y * 2 ^ t := mul_le_mul_of_nonneg_right full unit.le
    have nearer := whole (2 ^ 52)
    rw [Int.cast_pow, Int.cast_ofNat] at nearer
    have candidate := mul_le_mul_of_nonneg_right nearer unit.le
    rw [← scaled (2 ^ 52), abs_of_nonpos (a := 2 ^ 52 * 2 ^ t - y * 2 ^ t) (by linarith)] at candidate
    rw [abs_of_nonpos (a := (m : ℝ) * 2 ^ e - y * 2 ^ t) (by linarith)]
    linarith

noncomputable def signed : Sign → ℝ → ℝ
  | .negative, x => -x
  | .positive, x => x

/-- What an unpacked float stands for. -/
noncomputable def extended : UnpackedFloat → Extended
  | .infinity .negative => .below
  | .infinity .positive => .above
  | .notANumber => .undefined
  | .zero _ => .real 0
  | .finite s m e _ => .real (signed s (m * (2 : Nat) ^ e))

/-- The floats of one sign whose magnitude is nearest to `x`, in their stored form. -/
inductive RoundsTo (s : Sign) (x : ℝ) : UnpackedFloat → Prop
  | zero (rounds : Arithmetic.binary64.Rounds x 0) : RoundsTo s x (.zero s)
  | finite {m : Nat} {e : Int} (positive : 0 < m) (holds : Holds m e)
      (rounds : Arithmetic.binary64.Rounds x (m * 2 ^ e)) : RoundsTo s x (.finite s m e positive)
  | infinity (large : 2 ^ 1023 ≤ x) : RoundsTo s x (.infinity s)

theorem RoundsTo.gives {s : Sign} {x : ℝ} {u : UnpackedFloat} (rounded : RoundsTo s x u) :
    Arithmetic.binary64.Gives (signed s x) (extended u) := by
  cases rounded with
  | zero rounds =>
    cases s with
    | negative => exact .real (neg_zero (G := ℝ) ▸ rounds.neg)
    | positive => exact .real rounds
  | finite _ _ rounds =>
    cases s with
    | negative => exact .real rounds.neg
    | positive => exact .real rounds
  | infinity large =>
    cases s with
    | negative => exact .below rfl (neg_le_neg large)
    | positive => exact .above rfl large

theorem targetExponent_eq (m : Nat) (e : Int) :
    Format.binary64.targetExponent (totalExponent m e) = max (m.log2 + 1 + e - 53) (-1074) := rfl

/-- The shift to a target exponent drops digits, but never adds any. -/
theorem shiftToTargetExponent_eq {m : Nat} {e : Int} (accuracy : Accuracy) (k : Nat)
    (target : max (m.log2 + 1 + e - 53) (-1074) - e = k ∨ k = 0 ∧ max (m.log2 + 1 + e - 53) (-1074) ≤ e) :
    shiftToTargetExponent .binary64 m e accuracy =
      (ExtendedMantissa.ofMantissaAndAccuracy m accuracy >>> k, e + k) := by
  rw [shiftToTargetExponent, targetExponent_eq, shiftToExponent]
  have count : (max (m.log2 + 1 + e - 53) (-1074) - e).toNat = k := by omega
  simp only [count]

/-- The float of a mantissa that has been rounded to 53 digits, one more if it has been rounded up. -/
def store (s : Sign) (n : Nat) (t : Int) : UnpackedFloat :=
  let shifted := shiftToTargetExponent .binary64 n t .exact
  if h : shifted.1.mantissa = 0 then .zero s else .finite s shifted.1.mantissa shifted.2 (Nat.pos_of_ne_zero h)

theorem RoundsTo.store (s : Sign) {x : ℝ} {n : Nat} {t : Int} (rounds : Arithmetic.binary64.Rounds x (n * 2 ^ t))
    (small : n ≤ 2 ^ 53) (least : -1074 ≤ t) (long : t = -1074 ∨ 2 ^ 52 ≤ n) : RoundsTo s x (store s n t) := by
  unfold Binary64.store
  rcases small.lt_or_eq with short | rfl
  · have log : n.log2 ≤ 52 := by
      by_cases zero : n = 0
      · rw [zero, Nat.log2_zero]
        omega
      · exact Nat.lt_succ_iff.mp ((Nat.log2_lt zero).mpr short)
    have kept : (ExtendedMantissa.ofMantissaAndAccuracy n .exact >>> 0).mantissa = n := rfl
    simp only [shiftToTargetExponent_eq (m := n) (e := t) .exact 0 (.inr ⟨rfl, by omega⟩), kept]
    by_cases zero : n = 0
    · rw [dif_pos zero]
      rw [zero, Nat.cast_zero, zero_mul] at rounds
      exact .zero rounds
    · simp only [dif_neg zero, Int.natCast_zero, Int.add_zero]
      exact .finite _ ⟨short, by omega, by omega⟩ rounds
  · have log : (2 ^ 53).log2 = 53 := by decide
    have halved : (ExtendedMantissa.ofMantissaAndAccuracy (2 ^ 53) .exact >>> 1).mantissa = 2 ^ 52 := rfl
    have twice : ((2 ^ 53 : Nat) : ℝ) * 2 ^ t = (2 ^ 52 : Nat) * 2 ^ (t + 1) := by
      rw [zpow_add_one₀ (by norm_num)]
      push_cast
      ring
    rw [twice] at rounds
    simp only [shiftToTargetExponent_eq (m := 2 ^ 53) (e := t) .exact 1 (.inl (by omega)), halved]
    exact .finite (by decide) ⟨by decide, by omega, .inl le_rfl⟩ rounds

/-- A nearest whole number of units of a size that leaves 53 digits, or of the least unit, is stored
as a nearest float. -/
theorem RoundsTo.store_of_near (s : Sign) {y : ℝ} {n : Nat} {t : Int} (near : |n - y| ≤ 1 / 2) (digits : y < 2 ^ 53)
    (least : -1074 ≤ t) (normal : t = -1074 ∨ 2 ^ 52 ≤ y) : RoundsTo s (y * 2 ^ t) (Binary64.store s n t) := by
  have small : n ≤ 2 ^ 53 := by
    have less : (n : ℝ) < 2 ^ 53 + 1 := by linarith [(abs_le.mp near).2]
    have less' : n < 2 ^ 53 + 1 := by exact_mod_cast less
    omega
  have long : t = -1074 ∨ 2 ^ 52 ≤ n := by
    refine normal.imp_right fun full => ?_
    have more : (2 : ℝ) ^ 52 < n + 1 := by linarith [(abs_le.mp near).1]
    have more' : 2 ^ 52 < n + 1 := by exact_mod_cast more
    omega
  exact .store s (rounds_of_mantissa near small least normal) small least long

/-- Rounding gives a nearest float to whatever number its mantissa and accuracy describe. -/
theorem roundsTo_roundWithAccuracy (s : Sign) {m : Nat} {e : Int} {accuracy : Accuracy} {y : ℝ}
    (brackets : Brackets (.ofMantissaAndAccuracy m accuracy) y)
    (fine : e ≤ max (m.log2 + 1 + e - 53) (-1074)) :
    RoundsTo s (y * 2 ^ e) (roundWithAccuracy .binary64 s m e accuracy) := by
  obtain ⟨k, shift⟩ : ∃ k : Nat, max (m.log2 + 1 + e - 53) (-1074) = e + k :=
    ⟨(max (m.log2 + 1 + e - 53) (-1074) - e).toNat, by omega⟩
  have whole : (ExtendedMantissa.ofMantissaAndAccuracy m accuracy).mantissa = m := by
    rcases accuracy with _ | _ | _ | _ <;> rfl
  obtain ⟨lower, upper⟩ := brackets.mantissa_le
  rw [whole] at lower upper
  have shifted := brackets.shiftRight k
  generalize scaled : y / 2 ^ k = z at shifted
  have unit : (0 : ℝ) < 2 ^ k := by positivity
  have unscaled : y = z * 2 ^ k := by rw [← scaled, div_mul_cancel₀ _ unit.ne']
  have value : y * 2 ^ e = z * 2 ^ (e + k) := by rw [unscaled, zpow_add₀ (by norm_num), zpow_natCast]; ring
  -- Fifty-three digits are left of the mantissa, or fewer at the least exponent.
  have digits : z < 2 ^ 53 := by
    have power : m + 1 ≤ 2 ^ (53 + k) :=
      (Nat.lt_log2_self (n := m)).trans_le (Nat.pow_le_pow_right (by decide) (by omega))
    have power' : (m : ℝ) + 1 ≤ 2 ^ 53 * 2 ^ k := by rw [← pow_add]; exact_mod_cast power
    nlinarith
  have normal : e + k = -1074 ∨ 2 ^ 52 ≤ z := by
    by_cases least : e + k = -1074
    · exact .inl least
    · have positive : m ≠ 0 := by
        rintro rfl
        rw [Nat.log2_zero] at shift
        omega
      have power : 2 ^ (52 + k) ≤ m := by
        rw [show 52 + k = m.log2 by omega]
        exact Nat.log2_self_le positive
      have power' : (2 : ℝ) ^ 52 * 2 ^ k ≤ m := by rw [← pow_add]; exact_mod_cast power
      exact .inr (by nlinarith)
  have near := shifted.abs_roundedMantissa_sub_le
  have first := shiftToTargetExponent_eq (m := m) (e := e) accuracy k (.inl (by omega))
  have rounded : roundWithAccuracy .binary64 s m e accuracy =
      store s (shiftToTargetExponent .binary64 m e accuracy).1.roundedMantissa
        (shiftToTargetExponent .binary64 m e accuracy).2 := rfl
  rw [rounded, first, value]
  generalize (ExtendedMantissa.ofMantissaAndAccuracy m accuracy >>> k).roundedMantissa = n at near ⊢
  exact .store_of_near s near digits (by omega) normal

theorem unpack_pack_of_not_finite {u : UnpackedFloat} (notFinite : ∀ s m e positive, u ≠ .finite s m e positive) :
    (Float.Model.pack u).unpack = u := by
  cases u with
  | notANumber => rfl
  | infinity s => cases s <;> rfl
  | zero s => cases s <;> rfl
  | finite s m e positive => exact absurd rfl (notFinite s m e positive)

/-- A number that is stored and read again is what it was, unless its exponent is too large. -/
theorem unpack_pack_finite (s : Sign) {m : Nat} {e : Int} (positive : 0 < m) (holds : Holds m e) :
    (Float.Model.pack (.finite s m e positive)).unpack =
      if e ≤ 971 then .finite s m e positive else .infinity s := by
  obtain ⟨upper, least, shape⟩ := holds
  have bias : ((Format.binary64.exponentBias : Nat) : Int) = 1023 := rfl
  have digits : Format.binary64.mantissaBits = 53 := rfl
  change UnpackedFloat.unpack .binary64 (UnpackedFloat.pack .binary64 (.finite s m e positive)) = _
  simp only [UnpackedFloat.pack, bias, digits]
  by_cases fits : e ≤ 971
  · rw [if_pos fits, if_neg (by omega)]
    by_cases normal : 2 ^ 52 ≤ m
    · have exponent : (BitVec.ofNat 11 (e + 1023 + (52 : Nat)).toNat).toNat = (e + 1023 + (52 : Nat)).toNat :=
        (BitVec.toNat_ofNat ..).trans (Nat.mod_eq_of_lt (by omega))
      have fraction : (BitVec.ofNat 52 m).toNat = m - 2 ^ 52 := by
        rw [BitVec.toNat_ofNat]
        omega
      have notTop : BitVec.ofNat 11 (e + 1023 + (52 : Nat)).toNat ≠ -1#11 := by
        refine BitVec.toNat_ne_iff_ne.mp ?_
        rw [exponent, show (-1#11).toNat = 2047 from rfl]
        omega
      have notLeast : BitVec.ofNat 11 (e + 1023 + (52 : Nat)).toNat ≠ 0#11 := by
        refine BitVec.toNat_ne_iff_ne.mp ?_
        rw [exponent, BitVec.toNat_zero]
        omega
      rw [if_pos (by rw [log2_eq normal upper]), UnpackedFloat.unpack]
      simp only [unpackSign_packComponents, unpackExponent_packComponents, unpackMantissa_packComponents,
        if_neg notTop, if_neg notLeast, toNat_leadingOne, exponent, fraction, bias]
      have whole : 2 ^ 52 + (m - 2 ^ 52) = m := by omega
      have unbiased : ((e + 1023 + (52 : Nat)).toNat : Int) - (1023 + (52 : Nat)) = e := by omega
      simp only [whole, unbiased]
    · obtain rfl : e = -1074 := shape.resolve_left normal
      have short : m.log2 < 52 := (Nat.log2_lt (by omega)).mpr (by omega)
      have fraction : (BitVec.ofNat 52 m).toNat = m := (BitVec.toNat_ofNat ..).trans (Nat.mod_eq_of_lt (by omega))
      have nonzero : BitVec.ofNat 52 m ≠ 0#52 := by
        refine BitVec.toNat_ne_iff_ne.mp ?_
        rw [fraction, BitVec.toNat_zero]
        omega
      rw [if_neg (by omega), UnpackedFloat.unpack]
      simp only [unpackSign_packComponents, unpackExponent_packComponents, unpackMantissa_packComponents,
        dif_neg nonzero, fraction, bias]
      rfl
  · rw [if_neg fits, if_pos (by omega)]
    cases s <;> rfl

/-- What is stored still rounds to the same number, now with all numbers beyond the floats infinite. -/
theorem RoundsTo.unpack_pack {s : Sign} {x : ℝ} {u : UnpackedFloat} (rounded : RoundsTo s x u) :
    RoundsTo s x (Float.Model.pack u).unpack := by
  cases rounded with
  | zero rounds =>
    rw [unpack_pack_of_not_finite (by simp)]
    exact .zero rounds
  | infinity large =>
    rw [unpack_pack_of_not_finite (by simp)]
    exact .infinity large
  | @finite m e positive holds rounds =>
    rw [unpack_pack_finite s positive holds]
    split
    next => exact .finite positive holds rounds
    next beyond =>
      refine .infinity ?_
      by_contra less
      have most := rounds.ge_of_ge (.of_isFloat (.two_zpow (e := 1023) (by norm_num)))
        (by exact_mod_cast (not_le.mp less).le)
      have long : 2 ^ 52 ≤ m := holds.2.2.resolve_right (by omega)
      have long' : (2 : ℝ) ^ (52 : ℤ) ≤ m := by exact_mod_cast long
      have scale : (2 : ℝ) ^ (972 : ℤ) ≤ 2 ^ e := zpow_le_zpow_right₀ (by norm_num) (by omega)
      have product := mul_le_mul long' scale (by positivity) (by positivity)
      rw [← zpow_add₀ (by norm_num)] at product
      have order : (2 : ℝ) ^ (1023 : ℤ) < 2 ^ (52 + 972 : ℤ) := zpow_lt_zpow_right₀ (by norm_num) (by norm_num)
      linarith

/-- Rounding a number that is given by any mantissa and exponent. -/
theorem roundsTo_round (s : Sign) {m : Nat} (positive : 0 < m) (e : Int) :
    RoundsTo s (m * 2 ^ e) (UnpackedFloat.round .binary64 s m e) := by
  rw [UnpackedFloat.round, targetExponent_eq, decreaseExponent, Nat.shiftLeft_eq]
  generalize count : (e - max (m.log2 + 1 + e - 53) (-1074)).toNat = k
  have value : (m : ℝ) * 2 ^ e = (m * 2 ^ k : Nat) * 2 ^ (e - k) := by
    push_cast
    rw [mul_assoc, ← zpow_natCast, ← zpow_add₀ (by norm_num)]
    congr 2
    omega
  rw [value]
  exact roundsTo_roundWithAccuracy s rfl (by rw [log2_mul_two_pow positive]; omega)

def signOf (i : Int) : Sign := if i < 0 then .negative else .positive

theorem roundsTo_normalize (i e : Int) :
    RoundsTo (signOf i) (|(i : ℝ)| * 2 ^ e) (UnpackedFloat.normalize .binary64 i e .positive) := by
  rw [UnpackedFloat.normalize, signOf]
  rcases lt_trichotomy i 0 with negative | rfl | positive
  · have magnitude : ((-i).toNat : ℝ) = |(i : ℝ)| := by
      rw [abs_of_neg (by exact_mod_cast negative)]
      exact_mod_cast Int.toNat_of_nonneg (by omega)
    rw [compare_lt_iff_lt.mpr negative, if_pos negative, ← magnitude]
    exact roundsTo_round .negative (by omega) e
  · rw [compare_eq_iff_eq.mpr rfl, if_neg (lt_irrefl 0), Int.cast_zero, abs_zero, zero_mul]
    exact .zero (.of_holds (.of_isFloat (by exact_mod_cast IsFloat.intCast (n := 0) (by norm_num))))
  · have magnitude : (i.toNat : ℝ) = |(i : ℝ)| := by
      rw [abs_of_pos (by exact_mod_cast positive)]
      exact_mod_cast Int.toNat_of_nonneg (by omega)
    rw [compare_gt_iff_gt.mpr positive, if_neg (by omega), ← magnitude]
    exact roundsTo_round .positive (by omega) e

theorem signed_signOf (i : Int) (x : ℝ) : signed (signOf i) (|(i : ℝ)| * x) = i * x := by
  rw [signOf]
  split
  next negative =>
    rw [abs_of_neg (by exact_mod_cast negative), signed]
    ring
  next notNegative => rw [abs_of_nonneg (by exact_mod_cast not_lt.mp notNegative), signed]

theorem signed_mul (s t : Sign) (x y : ℝ) : signed (s * t) (x * y) = signed s x * signed t y := by
  cases s <;> cases t
  · exact (neg_mul_neg x y).symm
  · exact (neg_mul x y).symm
  · exact (mul_neg x y).symm
  · rfl

theorem signed_div (s t : Sign) (x y : ℝ) : signed (s / t) (x / y) = signed s x / signed t y := by
  cases s <;> cases t
  · exact (neg_div_neg_eq x y).symm
  · exact (neg_div y x).symm
  · exact (div_neg x).symm
  · rfl

theorem roundsTo_mul (s : Sign) {m n : Nat} {e d : Int} (left : 0 < m) (right : 0 < n) (holds : Holds m e)
    (holds' : Holds n d) :
    RoundsTo s (m * 2 ^ e * (n * 2 ^ d)) (roundWithAccuracy .binary64 s (m * n) (e + d) .exact) := by
  have value : (m : ℝ) * 2 ^ e * (n * 2 ^ d) = (m * n : Nat) * 2 ^ (e + d) := by
    rw [zpow_add₀ (by norm_num)]
    push_cast
    ring
  rw [value]
  refine roundsTo_roundWithAccuracy s rfl ?_
  -- One factor of 53 digits is enough for a product of as many.
  have long (full : 2 ^ 52 ≤ m * n) : 52 ≤ (m * n).log2 :=
    (Nat.le_log2 (Nat.mul_ne_zero left.ne' right.ne')).mpr full
  rcases holds.2.2, holds'.2.2 with ⟨full | least, full' | least'⟩
  · have := long (full.trans (Nat.le_mul_of_pos_right _ right))
    omega
  · have := long (full.trans (Nat.le_mul_of_pos_right _ right))
    omega
  · have := long (full'.trans (Nat.le_mul_of_pos_left _ left))
    omega
  · omega

/-- The accuracy of a quotient tells how far its fraction is from none and from a half. -/
theorem brackets_div (a : Nat) {b : Nat} (positive : 0 < b) :
    Brackets (.ofMantissaAndAccuracy (a / b) (accuracyOfFraction (a % b) b)) ((a : ℝ) / b) := by
  have positive' : (0 : ℝ) < b := by exact_mod_cast positive
  have parts : (a : ℝ) = b * (a / b : Nat) + (a % b : Nat) := by exact_mod_cast (Nat.div_add_mod a b).symm
  have less : ((a % b : Nat) : ℝ) < b := by exact_mod_cast Nat.mod_lt a positive
  have quotient : (a : ℝ) / b = (a / b : Nat) + (a % b : Nat) / b := by
    rw [parts, add_div, mul_div_cancel_left₀ _ positive'.ne']
  rw [quotient, accuracyOfFraction]
  split
  next none => simp [none, ExtendedMantissa.ofMantissaAndAccuracy, Brackets]
  next some =>
    have positiveRest : (0 : ℝ) < (a % b : Nat) := by exact_mod_cast Nat.pos_of_ne_zero some
    have fraction := div_pos positiveRest positive'
    rcases lt_trichotomy (2 * (a % b)) b with below | half | above
    · have below' : 2 * ((a % b : Nat) : ℝ) < b := by exact_mod_cast below
      rw [compare_lt_iff_lt.mpr below]
      have : ((a % b : Nat) : ℝ) / b < 1 / 2 := by rw [div_lt_div_iff₀ positive' (by norm_num)]; linarith
      constructor <;> simp only [ExtendedMantissa.ofMantissaAndAccuracy] <;> linarith
    · have half' : 2 * ((a % b : Nat) : ℝ) = b := by exact_mod_cast half
      rw [compare_eq_iff_eq.mpr half]
      have : ((a % b : Nat) : ℝ) / b = 1 / 2 := by rw [div_eq_div_iff positive'.ne' (by norm_num)]; linarith
      simp only [Brackets, ExtendedMantissa.ofMantissaAndAccuracy]
      linarith
    · have above' : (b : ℝ) < 2 * ((a % b : Nat) : ℝ) := by exact_mod_cast above
      rw [compare_gt_iff_gt.mpr above]
      have : 1 / 2 < ((a % b : Nat) : ℝ) / b := by rw [div_lt_div_iff₀ (by norm_num) positive']; linarith
      have : ((a % b : Nat) : ℝ) / b < 1 := by rw [div_lt_one positive']; exact less
      constructor <;> simp only [ExtendedMantissa.ofMantissaAndAccuracy] <;> linarith

theorem roundsTo_div (s : Sign) {m n : Nat} {e d : Int} (left : 0 < m) (right : 0 < n) :
    RoundsTo s (m * 2 ^ e / (n * 2 ^ d))
      (let (q, t, accuracy) := divCore .binary64 m e n d
       roundWithAccuracy .binary64 s q t accuracy) := by
  have target : Format.binary64.targetExponent (totalExponent m e - totalExponent n d) =
      max (m.log2 + 1 + e - (n.log2 + 1 + d) - 53) (-1074) := rfl
  simp only [divCore, target, Nat.shiftLeft_eq]
  generalize chosen : min (e - d) (max (m.log2 + 1 + e - (n.log2 + 1 + d) - 53) (-1074)) = t
  obtain ⟨k, shift⟩ : ∃ k : Nat, e - d - t = k := ⟨(e - d - t).toNat, by omega⟩
  have positive : (0 : ℝ) < n := by exact_mod_cast right
  have value : (m : ℝ) * 2 ^ e / (n * 2 ^ d) = (m * 2 ^ k : Nat) / n * 2 ^ t := by
    rw [show e = t + d + k by omega, zpow_add₀ (by norm_num), zpow_add₀ (by norm_num), zpow_natCast]
    have unit : (0 : ℝ) < 2 ^ d := zpow_pos (by norm_num) d
    field_simp
    push_cast
    ring
  rw [value, shift, Int.toNat_natCast]
  refine roundsTo_roundWithAccuracy s (brackets_div (m * 2 ^ k) right) ?_
  by_cases least : t ≤ -1074
  · omega
  -- The dividend has been shifted until the quotient has all of 53 digits.
  · have quotient : 2 ^ 52 ≤ m * 2 ^ k / n := by
      rw [Nat.le_div_iff_mul_le right]
      calc 2 ^ 52 * n ≤ 2 ^ 52 * 2 ^ (n.log2 + 1) := Nat.mul_le_mul_left _ Nat.lt_log2_self.le
        _ = 2 ^ (n.log2 + 53) := by rw [← Nat.pow_add]; congr 1; omega
        _ ≤ 2 ^ (m.log2 + k) := Nat.pow_le_pow_right (by decide) (by omega)
        _ = 2 ^ m.log2 * 2 ^ k := Nat.pow_add ..
        _ ≤ m * 2 ^ k := Nat.mul_le_mul_right _ (Nat.log2_self_le left.ne')
    have long : 52 ≤ (m * 2 ^ k / n).log2 := (Nat.le_log2 (by omega)).mpr quotient
    omega

end SphereMotion.Binary64
