import Mathlib
import SphereMotion.Proofs.Rounding

namespace SphereMotion

open Float.Model UnpackedFloat

namespace Binary64

/-- The number of sign `s` and magnitude `a` in its stored form. -/
inductive Number (s : Sign) : UnpackedFloat → ℝ → Prop
  | zero : Number s (.zero s) 0
  | finite {m : Nat} {e : Int} (positive : 0 < m) (holds : Holds m e) :
      Number s (.finite s m e positive) (m * 2 ^ e)

theorem exists_number {x : Float.Model} {a : ℝ} (value : extended x.unpack = .real a) :
    ∃ s c, Number s x.unpack c ∧ signed s c = a := by
  cases unpacked : x.unpack with
  | notANumber => rw [unpacked] at value; cases value
  | infinity s => rw [unpacked] at value; cases s <;> cases value
  | zero s =>
    rw [unpacked] at value
    cases value
    exact ⟨s, 0, .zero, by cases s <;> simp [signed]⟩
  | finite s m e positive =>
    have holds := holds_of_unpack unpacked
    rw [unpacked] at value
    cases value
    exact ⟨s, _, .finite positive holds, rfl⟩

namespace Number

variable {s t : Sign} {u v : UnpackedFloat} {a b : ℝ}

theorem isFloat (number : Number s u a) : IsFloat a := by
  cases number with
  | zero => exact_mod_cast IsFloat.intCast (n := 0) (by norm_num)
  | finite positive holds =>
    exact_mod_cast IsFloat.of_abs_le (m := (_ : Nat)) (by rw [Nat.abs_cast]; exact_mod_cast holds.1.le) holds.2.1

theorem nonneg (number : Number s u a) : 0 ≤ a := by
  cases number with
  | zero => exact le_rfl
  | finite => positivity

theorem roundsTo (number : Number s u a) : RoundsTo s a u := by
  have rounds := Arithmetic.Rounds.of_holds (.of_isFloat number.isFloat : Arithmetic.binary64.Holds a)
  cases number with
  | zero => exact .zero rounds
  | finite positive holds => exact .finite positive holds rounds

end Number

theorem Holds.eq_of_value {m n : Nat} {e d : Int} (holds : Holds m e) (holds' : Holds n d)
    (same : (m : ℝ) * 2 ^ e = n * 2 ^ d) : m = n ∧ e = d := by
  have equal {m n : Nat} {e d : Int} (holds : Holds m e) (holds' : Holds n d)
      (same : (m : ℝ) * 2 ^ e = n * 2 ^ d) (order : e ≤ d) : m = n ∧ e = d := by
    have unit : (0 : ℝ) < 2 ^ e := zpow_pos (by norm_num) e
    rw [two_zpow_eq_mul order, ← mul_assoc] at same
    have mantissa : m = n * 2 ^ (d - e).toNat := by exact_mod_cast mul_right_cancel₀ unit.ne' same
    rcases order.eq_or_lt with rfl | less
    · rw [Int.sub_self, Int.toNat_zero, Nat.pow_zero, Nat.mul_one] at mantissa
      exact ⟨mantissa, rfl⟩
    -- The larger exponent is not the least one, so its mantissa has no room for a factor of two.
    · have long : 2 ^ 52 ≤ n := holds'.2.2.resolve_right (by have := holds.2.1; omega)
      have twice : n * 2 ^ 1 ≤ n * 2 ^ (d - e).toNat :=
        Nat.mul_le_mul_left _ (Nat.pow_le_pow_right (by decide) (by omega))
      have := holds.1
      omega
  rcases le_total e d with order | order
  · exact equal holds holds' same order
  · obtain ⟨rfl, rfl⟩ := equal holds' holds same.symm order
    exact ⟨rfl, rfl⟩

theorem Number.eq {s : Sign} {u v : UnpackedFloat} {a : ℝ} (number : Number s u a) (number' : Number s v a) :
    u = v := by
  cases number with
  | zero =>
    generalize zero : (0 : ℝ) = c at number'
    cases number' with
    | zero => rfl
    | @finite m e positive =>
      have : (0 : ℝ) < m * 2 ^ e := by positivity
      exact absurd zero this.ne
  | @finite m e positive holds =>
    generalize same : (m : ℝ) * 2 ^ e = c at number'
    cases number' with
    | zero =>
      have : (0 : ℝ) < m * 2 ^ e := by positivity
      exact absurd same this.ne'
    | finite positive' holds' =>
      obtain ⟨rfl, rfl⟩ := holds.eq_of_value holds' same
      rfl

/-- A number that a double can hold is not changed by rounding. -/
theorem RoundsTo.number {s : Sign} {u : UnpackedFloat} {a : ℝ} (rounded : RoundsTo s a u) (float : IsFloat a)
    (small : a < 2 ^ 1023) : Number s u a := by
  cases rounded with
  | zero rounds => exact rounds.eq_of_holds float ▸ .zero
  | finite positive holds rounds => exact rounds.eq_of_holds float ▸ .finite positive holds
  | infinity large => exact absurd small (not_lt.mpr large)

/-- Taking away is adding the opposite, whatever the operands are. -/
theorem sub_eq_add (u v : UnpackedFloat) :
    UnpackedFloat.sub .binary64 u v = UnpackedFloat.add .binary64 u v.neg := by
  have negated (t : Sign) (n : Nat) : (-t).apply n = -t.apply n := by cases t <;> simp [Sign.apply]
  cases u with
  | notANumber => cases v <;> rfl
  | infinity s =>
    cases v with
    | infinity t => cases s <;> cases t <;> rfl
    | notANumber | zero | finite => cases s <;> rfl
  | zero s =>
    cases v with
    | zero t => cases s <;> cases t <;> rfl
    | notANumber | infinity | finite => rfl
  | finite s m e positive =>
    cases v with
    | finite t n d positive' =>
      simp only [UnpackedFloat.sub, UnpackedFloat.neg, UnpackedFloat.add, negated, Int.sub_eq_add_neg]
    | notANumber | infinity | zero => rfl

section Operations

variable {s t : Sign} {u v : UnpackedFloat} {a b : ℝ}

theorem signed_zero (s : Sign) : signed s 0 = 0 := by cases s <;> simp [signed]

/-- A mantissa counted in a smaller unit. -/
theorem shiftLeft_mul_zpow (m : Nat) {e t : Int} (order : t ≤ e) :
    ((m <<< (e - t).toNat : Nat) : ℝ) * 2 ^ t = m * 2 ^ e := by
  rw [Nat.shiftLeft_eq, two_zpow_eq_mul order]
  push_cast
  ring

theorem apply_decreaseExponent (s : Sign) (m : Nat) {e t : Int} (order : t ≤ e) :
    ((s.apply (decreaseExponent m e t).1 : Int) : ℝ) * 2 ^ t = signed s (m * 2 ^ e) := by
  rw [← shiftLeft_mul_zpow m order]
  cases s <;> simp only [decreaseExponent, Sign.apply, signed, Int.cast_neg, Int.cast_natCast, neg_mul]

/-- The sum of two numbers. A sum that is not negative is written as a positive number if the first one is. -/
theorem Number.add (left : Number s u a) (right : Number t v b) :
    ∃ r c, RoundsTo r c (UnpackedFloat.add .binary64 u v) ∧ signed r c = signed s a + signed t b ∧
      (s = .positive → 0 ≤ signed s a + signed t b → r = .positive) := by
  cases left with
  | zero =>
    cases right with
    | zero =>
      have rounds : Arithmetic.binary64.Rounds 0 0 := .of_holds (Number.zero (s := s)).isFloat
      refine ⟨if s == t then s else .positive, 0, ?_, ?_, ?_⟩
      · cases s <;> cases t <;> exact .zero rounds
      · simp [signed_zero]
      · rintro rfl _
        cases t <;> rfl
    | @finite n d positive holds =>
      refine ⟨t, _, (Number.finite positive holds).roundsTo, by rw [signed_zero, zero_add], fun _ sum => ?_⟩
      cases t with
      | positive => rfl
      | negative =>
        have more : (0 : ℝ) < n * 2 ^ d := by positivity
        rw [signed_zero, zero_add, signed] at sum
        linarith
  | @finite m e positive holds =>
    cases right with
    | zero =>
      exact ⟨s, _, (Number.finite positive holds).roundsTo, by rw [signed_zero, add_zero], fun first _ => first⟩
    | @finite n d positive' holds' =>
      have scaled :
          ((s.apply (decreaseExponent m e (min e d)).1 + t.apply (decreaseExponent n d (min e d)).1 : Int) : ℝ) *
            2 ^ min e d = signed s (m * 2 ^ e) + signed t (n * 2 ^ d) := by
        rw [Int.cast_add, add_mul, apply_decreaseExponent s m (min_le_left e d),
          apply_decreaseExponent t n (min_le_right e d)]
      refine ⟨_, _, roundsTo_normalize _ _, (signed_signOf ..).trans scaled, fun _ sum => ?_⟩
      rw [← scaled] at sum
      have notNegative := nonneg_of_mul_nonneg_left sum (zpow_pos (by norm_num) _)
      exact if_neg (not_lt.mpr (by exact_mod_cast notNegative))

theorem Number.extended_eq (number : Number s u a) : extended u = .real (signed s a) := by
  cases number with
  | zero => rw [signed_zero, extended]
  | finite => rfl

theorem Number.neg (number : Number s u a) : Number (-s) u.neg a := by
  cases number with
  | zero => exact .zero
  | finite positive holds => exact .finite positive holds

theorem signed_neg (s : Sign) (x : ℝ) : signed (-s) x = -signed s x := by
  cases s
  · exact (neg_neg x).symm
  · rfl

theorem Number.mul (left : Number s u a) (right : Number t v b) :
    RoundsTo (s * t) (a * b) (UnpackedFloat.mul .binary64 u v) := by
  have rounds : Arithmetic.binary64.Rounds 0 0 := .of_holds (Number.zero (s := s)).isFloat
  cases left with
  | zero =>
    rw [zero_mul]
    cases right <;> exact .zero rounds
  | finite positive holds =>
    cases right with
    | zero =>
      rw [mul_zero]
      exact .zero rounds
    | finite positive' holds' => exact roundsTo_mul _ positive positive' holds holds'

theorem Number.div (left : Number s u a) (right : Number t v b) (nonzero : b ≠ 0) :
    RoundsTo (s / t) (a / b) (UnpackedFloat.div .binary64 u v) := by
  have rounds : Arithmetic.binary64.Rounds 0 0 := .of_holds (Number.zero (s := s)).isFloat
  cases right with
  | zero => exact absurd rfl nonzero
  | finite positive' =>
    cases left with
    | zero =>
      rw [zero_div]
      exact .zero rounds
    | finite positive => exact roundsTo_div _ positive positive'

end Operations

/-- The opposite of a stored number is stored as it is. -/
theorem unpack_pack_neg (x : Float.Model) : (Float.Model.pack x.unpack.neg).unpack = x.unpack.neg := by
  have stored := congrArg Float.Model.unpack (pack_unpack x)
  cases unpacked : x.unpack with
  | finite s m e positive =>
    have holds := holds_of_unpack unpacked
    rw [unpacked, unpack_pack_finite s positive holds] at stored
    have fits : e ≤ 971 := by
      by_contra beyond
      rw [if_neg beyond] at stored
      cases stored
    rw [UnpackedFloat.neg, unpack_pack_finite (-s) positive holds, if_pos fits]
  | notANumber | infinity | zero => exact unpack_pack_of_not_finite (by simp [UnpackedFloat.neg])

theorem float_add_neg (x y : Float) : x + -y = x - y := by
  change Float.ofModel (Float.Model.pack (.add .binary64 x.toModel.unpack
    (Float.Model.pack y.toModel.unpack.neg).unpack)) = _
  rw [unpack_pack_neg, ← sub_eq_add]
  rfl

section Models

variable {x y : Float.Model} {a b : ℝ}

theorem gives_add (left : extended x.unpack = .real a) (right : extended y.unpack = .real b) :
    Arithmetic.binary64.Gives (a + b) (extended (x + y).unpack) := by
  obtain ⟨s, c, number, rfl⟩ := exists_number left
  obtain ⟨t, d, number', rfl⟩ := exists_number right
  obtain ⟨r, sum, rounded, value, -⟩ := number.add number'
  exact value ▸ rounded.unpack_pack.gives

theorem gives_sub (left : extended x.unpack = .real a) (right : extended y.unpack = .real b) :
    Arithmetic.binary64.Gives (a - b) (extended (x - y).unpack) := by
  obtain ⟨s, c, number, rfl⟩ := exists_number left
  obtain ⟨t, d, number', rfl⟩ := exists_number right
  obtain ⟨r, sum, rounded, value, -⟩ := number.add number'.neg
  rw [signed_neg, ← sub_eq_add_neg] at value
  rw [← sub_eq_add] at rounded
  exact value ▸ rounded.unpack_pack.gives

theorem gives_mul (left : extended x.unpack = .real a) (right : extended y.unpack = .real b) :
    Arithmetic.binary64.Gives (a * b) (extended (x * y).unpack) := by
  obtain ⟨s, c, number, rfl⟩ := exists_number left
  obtain ⟨t, d, number', rfl⟩ := exists_number right
  rw [← signed_mul]
  exact (number.mul number').unpack_pack.gives

theorem gives_div (left : extended x.unpack = .real a) (right : extended y.unpack = .real b) (nonzero : b ≠ 0) :
    Arithmetic.binary64.Gives (a / b) (extended (x / y).unpack) := by
  obtain ⟨s, c, number, rfl⟩ := exists_number left
  obtain ⟨t, d, number', rfl⟩ := exists_number right
  have nonzero' : d ≠ 0 := by
    rintro rfl
    exact nonzero (signed_zero t)
  rw [← signed_div]
  exact (number.div number' nonzero').unpack_pack.gives

end Models

theorem RoundsTo.neg {s : Sign} {x : ℝ} {u : UnpackedFloat} (rounded : RoundsTo s x u) : RoundsTo (-s) x u.neg := by
  cases rounded with
  | zero rounds => exact .zero rounds
  | finite positive holds rounds => exact .finite positive holds rounds
  | infinity large => exact .infinity large

/-- A natural number becomes a nearest float, directly if it has 53 digits and through a longer mantissa if not. -/
theorem roundsTo_ofNat (n : Nat) : RoundsTo .positive n (Float.ofNat n).toModel.unpack := by
  change RoundsTo .positive n (Float.ofScientific n false 0).toModel.unpack
  unfold Float.ofScientific
  split
  next short =>
    have word : n.toUInt64.toNat = n := UInt64.toNat_ofNat_of_lt' (short.1.trans (by decide))
    have rounded := (roundsTo_normalize n.toUInt64.toNat 0).unpack_pack
    have unscaled : |((n : Int) : ℝ)| * 2 ^ (0 : Int) = n := by simp
    have positive : signOf n = .positive := if_neg (by omega)
    rw [word, unscaled, positive] at rounded
    change RoundsTo .positive n (n.toUInt64.toFloat * Float.ofInt 1).toModel.unpack
    rw [mul_one]
    change RoundsTo .positive n
      (Float.Model.pack (UnpackedFloat.normalize .binary64 n.toUInt64.toNat 0 .positive)).unpack
    rwa [word]
  next long =>
    have positive : 0 < n := by omega
    have large : 53 ≤ n.log2 := (Nat.le_log2 positive.ne').mpr (by omega)
    have scaled : ((n * 2 ^ 53 : Nat) : ℝ) * 2 ^ (-53 : Int) = n := by
      rw [zpow_neg]
      push_cast
      field_simp
      norm_num
    have rounded : RoundsTo .positive ((n * 2 ^ 53 : Nat) * 2 ^ (-53 : Int))
        (roundWithAccuracy .binary64 .positive (n * 2 ^ 53) (-53) .exact) :=
      roundsTo_roundWithAccuracy .positive rfl (by rw [log2_mul_two_pow positive]; omega)
    rw [scaled] at rounded
    have shifted : n <<< 53 * 10 ^ 0 = n * 2 ^ 53 := by rw [Nat.shiftLeft_eq, Nat.pow_zero, Nat.mul_one]
    have bits : (2 : Int) ^ Format.binary64.exponentBits = 2048 := rfl
    have product : Float.Model.ofScientific n 0 =
        Float.Model.pack (roundWithAccuracy .binary64 .positive (n <<< 53 * 10 ^ 0) (-53) .exact) := by
      rw [Float.Model.ofScientific, UnpackedFloat.ofScientific, dif_neg positive.ne', if_neg (by decide),
        if_neg (by rw [bits]; omega), if_pos le_rfl]
      rfl
    change RoundsTo .positive n (Float.Model.ofScientific n 0).unpack
    rw [product, shifted]
    exact rounded.unpack_pack

theorem gives_ofInt (n : Int) : Arithmetic.binary64.Gives n (extended (Float.ofInt n).toModel.unpack) := by
  cases n with
  | ofNat n => exact (roundsTo_ofNat n).gives
  | negSucc n =>
    have rounded := (roundsTo_ofNat (n + 1)).neg.unpack_pack.gives
    have value : signed (-.positive) ((n + 1 : Nat) : ℝ) = Int.negSucc n := by
      rw [Int.cast_negSucc]
      rfl
    rw [value] at rounded
    exact rounded

def IsNumber : UnpackedFloat → Bool
  | .zero _ | .finite .. => true
  | .infinity _ | .notANumber => false

theorem isNumber_iff {u : UnpackedFloat} : IsNumber u = true ↔ ∃ a, extended u = .real a := by
  cases u with
  | notANumber => simp [IsNumber, extended]
  | infinity s => cases s <;> simp [IsNumber, extended]
  | zero => simp [IsNumber, extended]
  | finite => simp [IsNumber, extended]

theorem exists_of_isNumber {u v : UnpackedFloat} (numbers : IsNumber u = true ∧ IsNumber v = true) :
    ∃ a b, extended u = .real a ∧ extended v = .real b := by
  obtain ⟨a, left⟩ := isNumber_iff.mp numbers.1
  obtain ⟨b, right⟩ := isNumber_iff.mp numbers.2
  exact ⟨a, b, left, right⟩

theorem isNumber_of_pack {u : UnpackedFloat} (number : IsNumber (Float.Model.pack u).unpack = true) :
    IsNumber u = true := by
  cases u with
  | notANumber => exact number
  | infinity s => cases s <;> exact number
  | zero => rfl
  | finite => rfl

/-- No operation makes a number out of an infinity or the undefined value, unless it divides by it. -/
theorem isNumber_of_add {u v : UnpackedFloat} (number : IsNumber (UnpackedFloat.add .binary64 u v) = true) :
    IsNumber u = true ∧ IsNumber v = true := by
  cases u <;> cases v
  case infinity.infinity s t => cases s <;> cases t <;> cases number
  all_goals first | exact ⟨rfl, rfl⟩ | cases number

theorem isNumber_of_sub {u v : UnpackedFloat} (number : IsNumber (UnpackedFloat.sub .binary64 u v) = true) :
    IsNumber u = true ∧ IsNumber v = true := by
  cases u <;> cases v
  case infinity.infinity s t => cases s <;> cases t <;> cases number
  all_goals first | exact ⟨rfl, rfl⟩ | cases number

theorem isNumber_of_mul {u v : UnpackedFloat} (number : IsNumber (UnpackedFloat.mul .binary64 u v) = true) :
    IsNumber u = true ∧ IsNumber v = true := by
  cases u <;> cases v <;> first | exact ⟨rfl, rfl⟩ | cases number

theorem isNumber_of_div {u v : UnpackedFloat} (number : IsNumber (UnpackedFloat.div .binary64 u v) = true) :
    IsNumber u = true := by
  cases u <;> cases v <;> first | rfl | cases number

theorem beq_self {u : UnpackedFloat} : UnpackedFloat.beq u u = false ↔ extended u = .undefined := by
  cases u with
  | notANumber => simp [UnpackedFloat.beq, UnpackedFloat.compare, extended]
  | infinity s => cases s <;> simp [UnpackedFloat.beq, UnpackedFloat.compare, extended, compare]
  | zero => simp [UnpackedFloat.beq, UnpackedFloat.compare, extended]
  | finite s => cases s <;> simp [UnpackedFloat.beq, UnpackedFloat.compare, extended]

end Binary64

end SphereMotion
