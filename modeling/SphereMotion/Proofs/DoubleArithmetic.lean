import Mathlib
import SphereMotion.Proofs.FloatOperations
import SphereMotion.Proofs.Halves

namespace SphereMotion

open Float.Model

/-- Rounding a magnitude by shifting its mantissa. -/
theorem halfAway_eq_nearestNat (m : Nat) (e : Int) : halfAway (m * 2 ^ e) = Double.nearestNat m e := by
  rw [Double.nearestNat]
  split
  next whole =>
    obtain ⟨k, rfl⟩ := Int.eq_ofNat_of_zero_le whole
    rw [zpow_natCast, Int.toNat_natCast, Nat.shiftLeft_eq]
    exact_mod_cast halfAway_intCast (m * 2 ^ k : Nat)
  next fraction =>
    obtain ⟨k, rfl⟩ : ∃ k : Nat, e = -k := ⟨(-e).toNat, by omega⟩
    have positive : (0 : ℝ) ≤ m * 2 ^ (-k : Int) := by positivity
    have digits : (1 - -(k : Int)).toNat = k + 1 := by omega
    have sum : (m : ℝ) * 2 ^ (-k : Int) + 1 / 2 = (2 * m + 2 ^ k : Nat) / (2 ^ (k + 1) : Nat) := by
      rw [zpow_neg, zpow_natCast]
      push_cast
      field_simp
      ring
    rw [halfAway, if_pos positive, sum, neg_neg, Int.toNat_natCast, Nat.one_shiftLeft, digits,
      Nat.shiftRight_eq_div_pow, ← Nat.floor_div_eq_div (K := ℝ), Int.natCast_floor_eq_floor (by positivity)]

open Binary64 in
noncomputable instance : RealValued Double where
  arithmetic := .binary64
  value x := extended x.value.toModel.unpack
  holds_value value := by
    obtain ⟨s, c, number, rfl⟩ := exists_number value
    cases s with
    | negative => exact number.isFloat.neg
    | positive => exact number.isFloat
  ofInt := gives_ofInt
  add := gives_add
  sub := gives_sub
  mul := gives_mul
  div := gives_div
  real_of_add value := exists_of_isNumber (isNumber_of_add (isNumber_of_pack (isNumber_iff.mpr ⟨_, value⟩)))
  real_of_sub value := exists_of_isNumber (isNumber_of_sub (isNumber_of_pack (isNumber_iff.mpr ⟨_, value⟩)))
  real_of_mul value := exists_of_isNumber (isNumber_of_mul (isNumber_of_pack (isNumber_iff.mpr ⟨_, value⟩)))
  real_of_div value _ := isNumber_iff.mp (isNumber_of_div (isNumber_of_pack (isNumber_iff.mpr ⟨_, value⟩)))
  nearest_eq x := by
    change Double.nearest x = _
    unfold Double.nearest
    split
    next unpacked => rw [unpacked]; rfl
    next unpacked => rw [unpacked]; rfl
    next unpacked => rw [unpacked]; rfl
    next unpacked =>
      rw [unpacked]
      exact congrArg Nearest.whole (by exact_mod_cast (halfAway_intCast 0).symm)
    next m e _ unpacked =>
      rw [unpacked]
      exact congrArg Nearest.whole ((halfAway_neg _).trans (congrArg _ (halfAway_eq_nearestNat m e))).symm
    next m e _ unpacked =>
      rw [unpacked]
      exact congrArg Nearest.whole (halfAway_eq_nearestNat m e).symm
  isUndefined_iff {x} := by
    have self : Scalar.isUndefined x = !UnpackedFloat.beq x.value.toModel.unpack x.value.toModel.unpack := rfl
    rw [self, Bool.not_eq_true', beq_self]

namespace Double

open Binary64 Scalar

theorem eq_of_number {x y : Double} {s : UnpackedFloat.Sign} {a : ℝ} (left : Number s x.value.toModel.unpack a)
    (right : Number s y.value.toModel.unpack a) (payload : x.payload = y.payload) : x = y := by
  have unpacked := left.eq right
  obtain ⟨⟨x⟩, _⟩ := x
  obtain ⟨⟨y⟩, _⟩ := y
  obtain rfl : x = y := by rw [← pack_unpack x, ← pack_unpack y, unpacked]
  obtain rfl := payload
  rfl

/-- A double that is not negative, zero included, and has no undefined bits. -/
structure Denotes (x : Double) (a : ℝ) : Prop where
  number : Number .positive x.value.toModel.unpack a
  payload : x.payload = 0

namespace Denotes

variable {x y : Double} {a b : ℝ}

theorem eq (left : x.Denotes a) (right : y.Denotes a) : x = y :=
  eq_of_number left.number right.number (left.payload.trans right.payload.symm)

theorem value_eq (denotes : x.Denotes a) : RealValued.value x = .real a := denotes.number.extended_eq

theorem of_roundsTo {f : Float} (rounded : RoundsTo .positive a f.toModel.unpack) (float : IsFloat a)
    (small : a < 2 ^ 1023) : (ofFloat f).Denotes a := ⟨rounded.number float small, rfl⟩

theorem add (left : x.Denotes a) (right : y.Denotes b) (float : IsFloat (a + b)) (small : a + b < 2 ^ 1023) :
    (x + y).Denotes (a + b) := by
  obtain ⟨r, sum, rounded, value, positive⟩ := left.number.add right.number
  obtain rfl := positive rfl (add_nonneg left.number.nonneg right.number.nonneg)
  have value' : sum = a + b := value
  exact of_roundsTo (value' ▸ rounded.unpack_pack) float small

theorem sub (left : x.Denotes a) (right : y.Denotes b) (less : b ≤ a) (float : IsFloat (a - b))
    (small : a - b < 2 ^ 1023) : (x - y).Denotes (a - b) := by
  obtain ⟨r, sum, rounded, value, positive⟩ := left.number.add right.number.neg
  rw [signed_neg, ← sub_eq_add_neg] at value positive
  obtain rfl := positive rfl (sub_nonneg.mpr less)
  rw [← sub_eq_add] at rounded
  have value' : sum = a - b := value
  exact of_roundsTo (value' ▸ rounded.unpack_pack) float small

theorem mul (left : x.Denotes a) (right : y.Denotes b) (float : IsFloat (a * b)) (small : a * b < 2 ^ 1023) :
    (x * y).Denotes (a * b) :=
  of_roundsTo (left.number.mul right.number).unpack_pack float small

theorem div (left : x.Denotes a) (right : y.Denotes b) (nonzero : b ≠ 0) (float : IsFloat (a / b))
    (small : a / b < 2 ^ 1023) : (x / y).Denotes (a / b) :=
  of_roundsTo (left.number.div right.number nonzero).unpack_pack float small

theorem ofInt {n : Nat} (small : n ≤ 2 ^ 53) : (Scalar.ofInt n : Double).Denotes n := by
  have float : IsFloat (n : ℝ) := by
    exact_mod_cast IsFloat.intCast (n := n) (by rw [Nat.abs_cast]; exact_mod_cast small)
  have bound : (n : ℝ) ≤ 2 ^ 53 := by exact_mod_cast small
  exact of_roundsTo (roundsTo_ofNat n) float (bound.trans_lt (pow_lt_pow_right₀ (by norm_num) (by norm_num)))

end Denotes

theorem half_lt {n : Nat} (small : n < 2 ^ 53) : (n / 2 : ℝ) < 2 ^ 1023 := by
  have bound : (n : ℝ) < 2 ^ 53 := by exact_mod_cast small
  calc (n : ℝ) / 2 ≤ n := half_le_self (Nat.cast_nonneg n)
    _ < 2 ^ 53 := bound
    _ < 2 ^ 1023 := pow_lt_pow_right₀ (by norm_num) (by norm_num)

theorem denotes_half {n : Nat} (small : n < 2 ^ 53) : (half n : Double).Denotes (n / 2) := by
  have two : (Scalar.ofInt 2 : Double).Denotes 2 := by exact_mod_cast Denotes.ofInt (n := 2) (by norm_num)
  exact (Denotes.ofInt small.le).div two (by norm_num) (.half small.le) (half_lt small)

end Double

open Double Denotes Scalar in
instance : LawfulHalves Double where
  ofInt_eq_half {n} small := by
    have twice : ((2 * n : Nat) : ℝ) / 2 = n := by push_cast; ring
    exact (Denotes.ofInt (by omega)).eq (twice ▸ denotes_half (by omega))
  half_add_half {m n} small := by
    have sum : ((m + n : Nat) : ℝ) / 2 = m / 2 + n / 2 := by push_cast; ring
    have exact := denotes_half small
    rw [sum] at exact
    have result := (denotes_half (n := m) (by omega)).add (denotes_half (n := n) (by omega)) exact.number.isFloat
      (sum ▸ half_lt small)
    exact result.eq exact
  half_sub_half {m n} small := by
    have difference : ((m + n : Nat) : ℝ) / 2 - n / 2 = m / 2 := by push_cast; ring
    have less : (n : ℝ) / 2 ≤ (m + n : Nat) / 2 := by push_cast; linarith [(Nat.cast_nonneg m : (0 : ℝ) ≤ m)]
    have result := (denotes_half small).sub (denotes_half (n := n) (by omega)) less
      (difference ▸ IsFloat.half (by omega)) (difference ▸ half_lt (by omega))
    exact (difference ▸ result).eq (denotes_half (by omega))
  half_mul_ofInt {m n} left right small := by
    have product : ((m * n : Nat) : ℝ) / 2 = m / 2 * n := by push_cast; ring
    have exact := denotes_half small
    rw [product] at exact
    exact ((denotes_half left).mul (.ofInt right.le) exact.number.isFloat (product ▸ half_lt small)).eq exact
  half_div_ofInt {m n} positive small product := by
    have positive' : (0 : ℝ) < n := by exact_mod_cast positive
    have quotient : ((m * n : Nat) : ℝ) / 2 / n = m / 2 := by push_cast; field_simp
    have bound : m < 2 ^ 53 := (Nat.le_mul_of_pos_right m positive).trans_lt product
    have result := (denotes_half product).div (.ofInt small.le) positive'.ne' (quotient ▸ IsFloat.half bound.le)
      (quotient ▸ half_lt bound)
    exact (quotient ▸ result).eq (denotes_half bound)
  nearest_half {n} small := by
    have twice : ((2 * n : Nat) : ℝ) / 2 = (n : Int) := by push_cast; ring
    rw [RealValued.nearest_eq, (denotes_half (by omega)).value_eq, twice]
    exact congrArg Nearest.whole (halfAway_intCast n)

end SphereMotion
