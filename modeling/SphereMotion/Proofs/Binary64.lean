import Mathlib
import SphereMotion.Scalar.Double

namespace SphereMotion.Binary64

open Float.Model UnpackedFloat

/-- The mantissas and exponents of binary64: 53 binary digits, or fewer at the least exponent. -/
def Holds (m : Nat) (e : Int) : Prop := m < 2 ^ 53 ∧ -1074 ≤ e ∧ (2 ^ 52 ≤ m ∨ e = -1074)

theorem log2_eq {m : Nat} (lower : 2 ^ 52 ≤ m) (upper : m < 2 ^ 53) : m.log2 = 52 :=
  (Nat.log2_eq_iff (by omega)).mpr ⟨lower, upper⟩

theorem log2_mul_two_pow {m : Nat} (positive : 0 < m) (k : Nat) : (m * 2 ^ k).log2 = m.log2 + k := by
  have bounds := (Nat.log2_eq_iff (by omega)).mp (rfl : m.log2 = m.log2)
  have nonzero := Nat.mul_ne_zero (Nat.pos_iff_ne_zero.mp positive) (Nat.pos_iff_ne_zero.mp (Nat.two_pow_pos k))
  refine (Nat.log2_eq_iff nonzero).mpr ⟨?_, ?_⟩
  · rw [Nat.pow_add]
    exact Nat.mul_le_mul_right _ bounds.1
  · rw [show m.log2 + k + 1 = m.log2 + 1 + k by omega, Nat.pow_add]
    exact Nat.mul_lt_mul_of_pos_right bounds.2 (Nat.two_pow_pos k)

theorem toNat_leadingOne (fraction : BitVec 52) : (1#1 ++ fraction).toNat = 2 ^ 52 + fraction.toNat := by
  rw [BitVec.toNat_append, ← Nat.shiftLeft_add_eq_or_of_lt fraction.isLt]
  rfl

theorem unpackSign_packComponents (s : Sign) (exponent : BitVec 11) (fraction : BitVec 52) :
    Sign.ofBitVec (unpackSign (packComponents .binary64 s exponent fraction)) = s := by
  have top : unpackSign (packComponents .binary64 s exponent fraction) = s.toBitVec := by
    simp only [unpackSign, packComponents, BitVec.extractLsb]
    rw [BitVec.extractLsb'_append_eq_of_le (by decide), BitVec.extractLsb'_append_eq_of_le (by decide)]
    cases s <;> rfl
  rw [top]
  cases s <;> rfl

/-- Sign, exponent and fraction make up the whole word. -/
theorem packComponents_fields (word : BitVec Format.binary64.numBits) :
    packComponents .binary64 (Sign.ofBitVec (unpackSign word)) (unpackExponent word)
      (unpackMantissa word) = word := by
  have sign : ∀ bit : BitVec 1, (Sign.ofBitVec bit).toBitVec = bit := by decide
  rw [packComponents, sign]
  refine BitVec.eq_of_getElem_eq fun i inside => ?_
  simp only [unpackSign, unpackExponent, unpackMantissa, BitVec.extractLsb]
  grind

theorem pack_unpack_packComponents (s : Sign) (exponent : BitVec 11) (fraction : BitVec 52)
    (valid : Format.binary64.Valid (packComponents .binary64 s exponent fraction)) :
    UnpackedFloat.pack .binary64 (UnpackedFloat.unpack .binary64 (packComponents .binary64 s exponent fraction)) =
      packComponents .binary64 s exponent fraction := by
  have bias : ((Format.binary64.exponentBias : Nat) : Int) = 1023 := rfl
  have digits : Format.binary64.mantissaBits = 53 := rfl
  have fractionLt : fraction.toNat < 2 ^ 52 := fraction.isLt
  have exponentLt : exponent.toNat < 2 ^ 11 := exponent.isLt
  rw [UnpackedFloat.unpack]
  simp only [unpackSign_packComponents, unpackExponent_packComponents, unpackMantissa_packComponents]
  by_cases top : exponent = -1#11
  · by_cases whole : fraction = 0#52
    · rw [if_pos top, if_pos whole, top, whole]
      rfl
    · have undefined := valid.eq_packedNaN (unpackExponent_packComponents.trans top)
        (by rwa [unpackMantissa_packComponents])
      rw [if_pos top, if_neg whole, undefined]
      rfl
  have notTop : exponent.toNat ≠ 2047 := fun equal => top (BitVec.eq_of_toNat_eq equal)
  rw [if_neg top]
  by_cases least : exponent = 0#11
  · by_cases whole : fraction = 0#52
    · rw [if_pos least, dif_pos whole, least, whole]
      rfl
    · have short := (Nat.log2_lt (by simpa [BitVec.toNat_eq] using whole)).mpr fractionLt
      rw [if_pos least, dif_neg whole, UnpackedFloat.pack, if_neg (by simp [least, bias]), if_neg (by omega),
        BitVec.ofNat_toNat, BitVec.setWidth_eq, least]
  · have biased : ((exponent.toNat : Int) - (1023 + (52 : Nat)) + 1023 + (52 : Nat)).toNat = exponent.toNat := by
      omega
    have long := log2_eq (m := (1#1 ++ fraction).toNat) (by rw [toNat_leadingOne]; omega)
      (by rw [toNat_leadingOne]; omega)
    have cut : BitVec.ofNat 52 (1#1 ++ fraction).toNat = fraction := by
      apply BitVec.eq_of_toNat_eq
      rw [toNat_leadingOne, BitVec.toNat_ofNat]
      omega
    rw [if_neg least, UnpackedFloat.pack]
    simp only [bias, biased, long, cut]
    rw [if_neg (by omega), if_pos digits.symm, BitVec.ofNat_toNat, BitVec.setWidth_eq]

theorem pack_unpack (x : Float.Model) : Float.Model.pack x.unpack = x := by
  obtain ⟨bits, valid⟩ := x
  have parts := packComponents_fields bits.toBitVec
  have same := pack_unpack_packComponents _ _ _ (parts.symm ▸ valid)
  rw [parts] at same
  simp only [Float.Model.pack, Float.Model.unpack, same]

theorem holds_of_unpack {x : Float.Model} {s : Sign} {m : Nat} {e : Int} {positive : 0 < m}
    (unpacked : x.unpack = .finite s m e positive) : Holds m e := by
  have bias : ((Format.binary64.exponentBias : Nat) : Int) = 1023 := rfl
  have fractionLt : (@unpackMantissa .binary64 x.toBits.toBitVec).toNat < 2 ^ 52 := BitVec.isLt _
  unfold Float.Model.unpack UnpackedFloat.unpack at unpacked
  simp only at unpacked
  split at unpacked
  next => split at unpacked <;> cases unpacked
  next =>
    split at unpacked
    next least =>
      split at unpacked
      · cases unpacked
      · obtain ⟨-, rfl, rfl, -⟩ := unpacked
        rw [least, bias]
        exact ⟨by omega, by simp, .inr (by simp)⟩
    next notLeast =>
      have notZero := BitVec.toNat_ne_iff_ne.mpr notLeast
      rw [BitVec.toNat_zero] at notZero
      obtain ⟨-, rfl, rfl, -⟩ := unpacked
      rw [toNat_leadingOne, bias]
      exact ⟨by omega, by omega, .inl (by omega)⟩

theorem shiftRight_mul_two_pow (m k : Nat) :
    (⟨m * 2 ^ k, false, false⟩ : ExtendedMantissa) >>> k = ⟨m, false, false⟩ := by
  induction k generalizing m with
  | zero => simp only [Nat.pow_zero, Nat.mul_one]; rfl
  | succ k ih =>
    have twice := ih (m * 2)
    rw [Nat.mul_assoc, ← Nat.pow_succ'] at twice
    change ExtendedMantissa.shiftRightOne ((⟨m * 2 ^ (k + 1), false, false⟩ : ExtendedMantissa) >>> k) = _
    rw [twice]
    simp [ExtendedMantissa.shiftRightOne]

theorem Holds.targetExponent_mul_two_pow {m : Nat} {e : Int} (holds : Holds m e) (positive : 0 < m) (k : Nat) :
    Format.binary64.targetExponent (totalExponent (m * 2 ^ k) (e - k)) = e := by
  obtain ⟨upper, least, shape⟩ := holds
  have digits : Format.binary64.mantissaBits = 53 := rfl
  have minExponent : Format.binary64.minExponent = -1074 := rfl
  rw [Format.targetExponent, totalExponent, log2_mul_two_pow positive, digits, minExponent]
  have short := (Nat.log2_lt (by omega)).mpr upper
  rcases shape with lower | rfl
  · have := log2_eq lower upper
    omega
  · omega

/-- Rounding finds a binary64 number again when it is written with a mantissa that is too long by zeros. -/
theorem Holds.roundWithAccuracy {m : Nat} {e : Int} (holds : Holds m e) (positive : 0 < m) (s : Sign) (k : Nat) :
    UnpackedFloat.roundWithAccuracy .binary64 s (m * 2 ^ k) (e - k) .exact = .finite s m e positive := by
  have first : shiftToTargetExponent .binary64 (m * 2 ^ k) (e - k) .exact = (⟨m, false, false⟩, e) := by
    have count : (e - (e - k)).toNat = k := by omega
    rw [shiftToTargetExponent, holds.targetExponent_mul_two_pow positive, shiftToExponent, count]
    exact Prod.ext (shiftRight_mul_two_pow m k) (by simp)
  have second : shiftToTargetExponent .binary64 m e .exact = (⟨m, false, false⟩, e) := by
    have target := holds.targetExponent_mul_two_pow positive 0
    simp only [Nat.pow_zero, Nat.mul_one, Int.natCast_zero, Int.sub_zero] at target
    rw [shiftToTargetExponent, target, shiftToExponent, Int.sub_self]
    exact Prod.ext rfl (by simp)
  rw [UnpackedFloat.roundWithAccuracy, first]
  simp only [ExtendedMantissa.roundedMantissa, ExtendedMantissa.accuracy, Accuracy.roundToNearestEven, second]
  rw [dif_neg (by omega)]

/-- The product with a number of magnitude one, which is stored as `2 ^ 52 * 2 ^ (-52)`. -/
theorem mul_unit (x : Float.Model) (t : Sign) :
    UnpackedFloat.mul .binary64 x.unpack (.finite t (2 ^ 52) (-52) (by decide)) =
      match t with
      | .positive => x.unpack
      | .negative => x.unpack.neg := by
  cases unpacked : x.unpack with
  | notANumber => cases t <;> rfl
  | infinity s => cases s <;> cases t <;> rfl
  | zero s => cases s <;> cases t <;> rfl
  | finite s m e positive =>
    have holds := holds_of_unpack unpacked
    change UnpackedFloat.roundWithAccuracy .binary64 (s * t) (m * 2 ^ 52) (e - (52 : Nat)) .exact = _
    rw [holds.roundWithAccuracy positive]
    cases s <;> cases t <;> rfl

theorem mul_one (x : Float) : x * Float.ofInt 1 = x := by
  change Float.ofModel (Float.Model.pack (.mul .binary64 x.toModel.unpack (.finite .positive (2 ^ 52) (-52) _))) = x
  rw [mul_unit, pack_unpack]

theorem mul_neg_one (x : Float) : x * -Float.ofInt 1 = -x := by
  change Float.ofModel (Float.Model.pack (.mul .binary64 x.toModel.unpack (.finite .negative (2 ^ 52) (-52) _))) = _
  rw [mul_unit]
  rfl

end SphereMotion.Binary64
