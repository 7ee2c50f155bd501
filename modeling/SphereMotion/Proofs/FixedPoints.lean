import Mathlib
import SphereMotion.MotionVector
import SphereMotion.Proofs.ExactUnits
import SphereMotion.Proofs.Halves
import SphereMotion.Proofs.RealValues
import SphereMotion.Proofs.ValueOrder

namespace SphereMotion

theorem Nearest.toInt32_whole {n : Int} (lower : -2 ^ 31 ≤ n) (upper : n < 2 ^ 31) :
    (Nearest.whole n).toInt32 = Int32.ofInt n := by
  have lower' : Int32.minValue.toInt ≤ n := lower
  have upper' : n ≤ Int32.maxValue.toInt := by
    change n ≤ 2147483647
    omega
  apply Int32.toInt_inj.mp
  rw [Nearest.toInt32, Int32.toInt_ofIntClamp lower' upper', Int32.toInt_ofInt_of_le lower upper]

theorem Nearest.ofIntClamp_eq_maxValue {n : Int} (beyond : 2 ^ 31 ≤ n) : Int32.ofIntClamp n = Int32.maxValue := by
  have most : Int32.maxValue.toInt = 2 ^ 31 - 1 := rfl
  have least : Int32.minValue.toInt = -2 ^ 31 := rfl
  rw [Int32.ofIntClamp, dif_pos (by omega), dif_neg (by omega)]

theorem Nearest.ofIntClamp_eq_minValue {n : Int} (beyond : n < -2 ^ 31) : Int32.ofIntClamp n = Int32.minValue := by
  have least : Int32.minValue.toInt = -2 ^ 31 := rfl
  rw [Int32.ofIntClamp, dif_neg (by omega)]

theorem RealValued.value_half {α : Type} [Scalar α] [RealValued α] {n : Nat} (small : n ≤ 2 ^ 53) :
    value (Scalar.half n : α) = .real (n / 2) := by
  have counts : Scalar.Counts (Scalar.half n : α) 1 n := .half small
  rw [counts.value, pow_one, Int.cast_natCast]

namespace FixedPoint

theorem scale_eq {precision : Nat} (small : precision < 63) : scale precision = (2 ^ precision : Nat) := by
  have power : (2 : Int) ^ precision < 2 ^ 63 := pow_lt_pow_right₀ (by decide) small
  have positive : (0 : Int) < 2 ^ precision := by positivity
  unfold scale
  rw [Nat.one_shiftLeft, Nat.cast_pow, Nat.cast_ofNat]
  refine Int.bmod_eq_of_le ?_ ?_ <;> simp only [UInt64.size] <;> omega

/-- A whole number in fixed point is its word, shifted. -/
theorem ofNat_shiftLeft (n : Nat) {precision : Nat} (small : precision < 32) :
    Int32.ofNat n <<< Int32.ofNat precision = Int32.ofInt (n * 2 ^ precision : Nat) := by
  have amount : (Int32.ofNat precision).toBitVec.smod 32 = BitVec.ofNat 32 precision := by
    interval_cases precision <;> rfl
  apply Int32.toBitVec_inj.mp
  rw [Int32.toBitVec_shiftLeft, amount, Int32.ofInt_eq_ofNat]
  change BitVec.ofNat 32 n <<< BitVec.ofNat 32 precision = BitVec.ofNat 32 (n * 2 ^ precision)
  apply BitVec.eq_of_toNat_eq
  simp only [BitVec.shiftLeft_eq', BitVec.toNat_shiftLeft, BitVec.toNat_ofNat, Nat.shiftLeft_eq]
  rw [Nat.mod_eq_of_lt (a := precision) (by omega), Nat.mod_mul_mod]

variable {α : Type} [Scalar α]

/-- Whole numbers that fit have their own words. -/
theorem ofScalar_whole [LawfulHalves α] {n precision : Nat} (small : precision < 32)
    (fits : n * 2 ^ precision < 2 ^ 31) :
    ofScalar (Scalar.half (2 * n) : α) precision = Int32.ofInt (n * 2 ^ precision : Nat) := by
  have power : 2 ^ precision < 2 ^ 32 := Nat.pow_lt_pow_right (by decide) small
  have atLeast := Nat.le_mul_of_pos_right n (Nat.two_pow_pos precision)
  rw [ofScalar, round, scale_eq (by omega), LawfulHalves.half_mul_ofInt (by omega) (by omega)
    (by rw [Nat.mul_assoc]; omega), Nat.mul_assoc, LawfulHalves.nearest_half (by omega), Nearest.toInt32_whole] <;>
    omega

theorem toScalar_zero [LawfulHalves α] {precision : Nat} (small : precision < 52) :
    (toScalar 0 precision : α) = Scalar.ofInt (0 : Nat) := by
  have power : 2 ^ precision < 2 ^ 52 := Nat.pow_lt_pow_right (by decide) small
  have zero : ((0 : Int32).toInt : Int) = (0 : Nat) := rfl
  rw [toScalar, scale_eq (by omega), zero, Int.natCast_zero, Int.zero_ediv, Int.zero_emod, ← Int.natCast_zero]
  have half : (Scalar.ofInt (0 : Nat) : α) = Scalar.half 0 := LawfulHalves.ofInt_eq_half (by decide)
  have quotient : (Scalar.half 0 / Scalar.ofInt (2 ^ precision : Nat) : α) = Scalar.half 0 := by
    simpa using LawfulHalves.half_div_ofInt (α := α) (m := 0) (Nat.two_pow_pos precision) (by omega) (by omega)
  rw [half, quotient, LawfulHalves.half_add_half (by decide)]

variable [RealValued α]

/-- A scalar that fits is a real number in units of the last fractional bit, rounded. -/
theorem exists_of_isSome {x : α} {precision : Nat} (small : precision < 63)
    (fits : (ofScalar? x precision).isSome) :
    ∃ r, RealValued.value x = .real r ∧ FitsWord r precision ∧
      ofScalar? x precision = some (Int32.ofInt (halfAway (r * 2 ^ precision))) ∧
      ofScalar x precision = Int32.ofInt (halfAway (r * 2 ^ precision)) := by
  have rounded : round x precision = (RealValued.value (x * Scalar.ofInt (2 ^ precision : Nat))).nearest := by
    rw [round, scale_eq small, RealValued.nearest_eq]
  rw [ofScalar?, rounded] at fits
  cases atNearest : (RealValued.value (x * Scalar.ofInt (2 ^ precision : Nat))).nearest with
  | undefined | below | above => rw [atNearest] at fits; cases fits
  | whole n =>
    rw [atNearest, Nearest.toInt32?, Option.isSome_ite] at fits
    obtain ⟨q, atProduct, rfl⟩ := Extended.eq_real_of_nearest atNearest
    obtain ⟨r, scale, atScalar, atScale⟩ := RealValued.real_of_mul atProduct
    have power : scale = 2 ^ precision := by
      have gives := RealValued.ofInt (α := α) (2 ^ precision : Nat)
      rw [atScale] at gives
      push_cast at gives
      rw [← zpow_natCast] at gives ⊢
      exact gives.rounds.eq_of_holds (.of_isFloat (.two_zpow (by omega)))
    subst power
    have product := RealValued.mul atScalar atScale
    rw [atProduct] at product
    obtain rfl := product.rounds.eq_of_holds ((RealValued.holds_value atScalar).mul_two_pow precision)
    have range : FitsWord r precision := by
      have upper : halfAway (r * 2 ^ precision) ≤ 2147483647 := fits.2
      exact ⟨fits.1, by omega⟩
    refine ⟨r, atScalar, range, ?_, ?_⟩
    · rw [ofScalar?, rounded, atNearest]
      exact if_pos fits
    · rw [ofScalar, rounded, atNearest, Nearest.toInt32_whole range.lower range.upper]

theorem eq_none_of_undefined {x : α} {precision : Nat} (small : precision < 63)
    (undefined : ∀ r, RealValued.value x ≠ .real r) : ofScalar? x precision = none := by
  cases fits : (ofScalar? x precision).isSome with
  | false => exact Option.not_isSome_iff_eq_none.mp (by rw [fits]; exact Bool.false_ne_true)
  | true =>
    obtain ⟨r, value, -⟩ := exists_of_isSome small fits
    exact absurd value (undefined r)

/-- No shift, if it fits at all, is zero. -/
theorem ofScalar?_sub_self {x : α} {precision : Nat} (small : precision < 63)
    (fits : (ofScalar? (x - x) precision).isSome) : ofScalar? (x - x) precision = some 0 := by
  obtain ⟨r, difference, -, word, -⟩ := exists_of_isSome small fits
  obtain ⟨a, b, left, right⟩ := RealValued.real_of_sub difference
  obtain rfl : a = b := Extended.real.inj (left.symm.trans right)
  have gives := RealValued.sub left right
  rw [difference, sub_self] at gives
  have holds : (RealValued.arithmetic α).Holds (0 : ℤ) := .of_isFloat (.intCast (by norm_num))
  obtain rfl := gives.rounds.eq_of_holds (by exact_mod_cast holds)
  rw [word, zero_mul, halfAway_zero]
  rfl

theorem counts_scale {precision : Nat} (small : precision ≤ 53) :
    Scalar.Counts (Scalar.ofInt (scale precision) : α) 0 (2 ^ precision) := by
  rw [scale_eq (by omega)]
  exact .two_pow (by omega)

/-- The whole part of a word and its fraction. -/
theorem counts_parts (word : Int32) {precision : Nat} (small : precision ≤ 53) :
    Scalar.Counts (Scalar.ofInt (word.toInt / scale precision) : α) 0 (word.toInt / 2 ^ precision) ∧
      Scalar.Counts (Scalar.ofInt (word.toInt % scale precision) / Scalar.ofInt (scale precision) : α) precision
        (word.toInt % 2 ^ precision) := by
  have lower := word.le_toInt
  have upper := word.toInt_lt
  have unit : (0 : ℤ) < 2 ^ precision := by positivity
  have power : (2 : ℤ) ^ precision ≤ 2 ^ 53 := pow_le_pow_right₀ (by norm_num) small
  have power' : scale precision = 2 ^ precision := by rw [scale_eq (by omega), Nat.cast_pow, Nat.cast_ofNat]
  have restNonneg := Int.emod_nonneg word.toInt unit.ne'
  have restLt := Int.emod_lt_of_pos word.toInt unit
  have wholeLower : -2 ^ 31 ≤ word.toInt / 2 ^ precision := (Int.le_ediv_iff_mul_le unit).mpr (by nlinarith)
  have wholeUpper : word.toInt / 2 ^ precision < 2 ^ 31 := Int.ediv_lt_of_lt_mul unit (by nlinarith)
  have rest : Scalar.Counts (Scalar.ofInt (word.toInt % 2 ^ precision) : α) 0 _ := .ofInt (by rw [abs_le]; omega)
  have scaled := rest.div_two_pow (counts_scale (α := α) small) (by omega)
  rw [zero_add, power'] at scaled
  rw [power']
  exact ⟨.ofInt (by rw [abs_le]; omega), scaled⟩

/-- A word reads as the number that it stands for. -/
theorem counts_toScalar (word : Int32) {precision : Nat} (small : precision ≤ 53) :
    Scalar.Counts (toScalar word precision : α) precision word.toInt := by
  have lower := word.le_toInt
  have upper := word.toInt_lt
  have parts := Int.ediv_mul_add_emod word.toInt (2 ^ precision)
  have unit : (0 : ℤ) < 2 ^ precision := by positivity
  have power : (2 : ℤ) ^ precision ≤ 2 ^ 53 := pow_le_pow_right₀ (by norm_num) small
  have restNonneg := Int.emod_nonneg word.toInt unit.ne'
  have restLt := Int.emod_lt_of_pos word.toInt unit
  -- where the fraction alone may take all 53 digits, the whole part is -1 or nothing
  have most : -2 ^ 53 ≤ word.toInt / 2 ^ precision * 2 ^ precision := by
    rcases small.lt_or_eq with less | rfl
    · have half : (2 : ℤ) ^ precision ≤ 2 ^ 52 := pow_le_pow_right₀ (by norm_num) (by omega)
      omega
    · omega
  obtain ⟨whole, rest⟩ := counts_parts (α := α) word small
  have refined := (whole.refine precision (by rw [abs_le]; omega) (by omega)).of_eq (Nat.zero_add precision) rfl
  have sum := refined.add rest (by rw [parts, abs_le]; omega)
  rw [parts] at sum
  exact sum

/-- The word of 32 bits that is nearest to a value in units of the last fractional bit. -/
noncomputable def word (precision : Nat) : Extended → Int32
  | .undefined => 0
  | .below => Int32.minValue
  | .above => Int32.maxValue
  | .real r => Int32.ofIntClamp (halfAway (r * (2 ^ precision : Nat)))

theorem value_scale {precision : Nat} (small : precision < 63) :
    RealValued.value (Scalar.ofInt (scale precision) : α) = .real (2 ^ precision) := by
  have float : IsFloat (2 ^ (precision : ℤ)) := .two_zpow (by omega)
  have gives := RealValued.ofInt (α := α) (2 ^ precision : Nat)
  push_cast at gives float
  rw [scale_eq small]
  push_cast
  refine gives.eq_real (.of_isFloat (by exact_mod_cast float)) ?_
  rw [abs_of_pos (by positivity)]
  exact pow_lt_pow_right₀ (by norm_num) (by omega)

/-- A real number is rounded without an error, or is so large that its word is limited. -/
theorem ofScalar_of_real {x : α} {r : ℝ} {precision : Nat} (small : precision < 63)
    (real : RealValued.value x = .real r) : ofScalar x precision = word precision (.real r) := by
  have product := RealValued.mul real (value_scale (α := α) small)
  rw [ofScalar, round, RealValued.nearest_eq, word]
  push_cast
  generalize RealValued.value (x * Scalar.ofInt (scale precision)) = v at product
  obtain ⟨nearBelow, nearAbove⟩ := abs_le.mp (abs_halfAway_sub_le (r * 2 ^ precision))
  have huge : (2 : ℝ) ^ 32 ≤ 2 ^ 1023 := pow_le_pow_right₀ (by norm_num) (by norm_num)
  cases product with
  | real rounds =>
    rw [rounds.eq_of_holds ((RealValued.holds_value real).mul_two_pow precision)]
    rfl
  | above _ large =>
    have reached := huge.trans large
    have beyond : (2 ^ 31 : ℝ) < halfAway (r * 2 ^ precision) := by linarith only [reached, nearBelow]
    have beyond' : 2 ^ 31 < halfAway (r * 2 ^ precision) := by exact_mod_cast beyond
    exact (Nearest.ofIntClamp_eq_maxValue beyond'.le).symm
  | below _ large =>
    have reached := large.trans (neg_le_neg huge)
    have beyond : (halfAway (r * 2 ^ precision) : ℝ) < -2 ^ 31 := by linarith only [reached, nearAbove]
    have beyond' : halfAway (r * 2 ^ precision) < -2 ^ 31 := by exact_mod_cast beyond
    exact (Nearest.ofIntClamp_eq_minValue beyond').symm

/-- What is read is written as it was. -/
theorem ofScalar_toScalar (word : Int32) {precision : Nat} (small : precision ≤ 53) :
    ofScalar (toScalar word precision : α) precision = word := by
  have unit : (2 : ℝ) ^ precision ≠ 0 := by positivity
  have whole : (word.toInt / 2 ^ precision * (2 ^ precision : Nat) : ℝ) = word.toInt := by
    push_cast
    exact div_mul_cancel₀ _ unit
  rw [ofScalar_of_real (by omega) (counts_toScalar word small).value, FixedPoint.word, whole, halfAway_intCast]
  exact Int32.toInt_inj.mp (Int32.toInt_ofIntClamp word.minValue_le_toInt word.toInt_le)

/-- The word of any scalar is nearest to its value. -/
theorem ofScalar_eq_word [LawfulInfinities α] (x : α) {precision : Nat} (small : precision < 63) :
    ofScalar x precision = word precision (RealValued.value x) := by
  have positive : (0 : ℝ) < 2 ^ precision := by positivity
  cases value : RealValued.value x with
  | real r => exact ofScalar_of_real small value
  | undefined =>
    rw [ofScalar, round, RealValued.nearest_eq, LawfulInfinities.mul_of_undefined _ value]
    rfl
  | above =>
    rw [ofScalar, round, RealValued.nearest_eq, LawfulInfinities.mul_of_above value (value_scale small) positive]
    rfl
  | below =>
    rw [ofScalar, round, RealValued.nearest_eq, LawfulInfinities.mul_of_below value (value_scale small) positive]
    rfl

end FixedPoint

namespace MotionVector

variable {α : Type} [Scalar α] {motion : Vec2 α} {precision : Nat}

theorem eq_zero_of_isZero {mv : MotionVector} (still : mv.isZero = true) : mv = .zero := by
  obtain ⟨horizontal, vertical⟩ := Bool.and_eq_true_iff.mp still
  rcases mv with ⟨h, v⟩
  obtain rfl : h = 0 := eq_of_beq horizontal
  obtain rfl : v = 0 := eq_of_beq vertical
  rfl

theorem isSome_ofVec2?_iff : (ofVec2? motion precision).isSome ↔
    (FixedPoint.ofScalar? motion.x precision).isSome ∧ (FixedPoint.ofScalar? motion.y precision).isSome := by
  unfold ofVec2?
  cases FixedPoint.ofScalar? motion.x precision <;> cases FixedPoint.ofScalar? motion.y precision <;> simp

theorem ofVec2?_eq_some {horizontal vertical : Int32}
    (x : FixedPoint.ofScalar? motion.x precision = some horizontal)
    (y : FixedPoint.ofScalar? motion.y precision = some vertical) :
    ofVec2? motion precision = some ⟨horizontal, vertical⟩ := by
  rw [ofVec2?, x, y]
  rfl

variable [RealValued α]

theorem ofVec2?_eq_none (small : precision < 63)
    (undefined : (∀ r, RealValued.value motion.x ≠ .real r) ∨ ∀ r, RealValued.value motion.y ≠ .real r) :
    ofVec2? motion precision = none := by
  rw [← Option.not_isSome_iff_eq_none, isSome_ofVec2?_iff]
  rcases undefined with undefined | undefined <;> simp [FixedPoint.eq_none_of_undefined small undefined]

/-- No shift is the zero vector, whether it is told or not. -/
theorem ofVec2?_sub_self (p : Vec2 α) (small : precision < 63) :
    (ofVec2? (p - p) precision).getD .zero = .zero := by
  cases told : ofVec2? (p - p) precision with
  | none => rfl
  | some mv =>
    obtain ⟨x, y⟩ := isSome_ofVec2?_iff.mp (Option.isSome_of_eq_some told)
    have zero : ofVec2? (p - p) precision = some .zero :=
      ofVec2?_eq_some (FixedPoint.ofScalar?_sub_self small x) (FixedPoint.ofScalar?_sub_self small y)
    exact Option.some.inj (told.symm.trans zero)

/-- The zero vector is no motion. -/
theorem isZero_toVec2_zero [LawfulHalves α] (small : precision < 52) :
    (zero.toVec2 precision : Vec2 α).isZero = true := by
  have defined : Scalar.isUndefined (Scalar.ofInt (0 : Nat) : α) = false := by
    rw [← Bool.not_eq_true, RealValued.isUndefined_iff, RealValued.value_ofInt (by norm_num)]
    exact nofun
  have same : (Scalar.ofInt (0 : Nat) == (Scalar.ofInt (0 : Nat) : α)) = true := by
    rwa [Scalar.isUndefined, Bool.not_eq_false'] at defined
  have word : (zero.toVec2 precision : Vec2 α) = ⟨Scalar.ofInt (0 : Nat), Scalar.ofInt (0 : Nat)⟩ :=
    Vec2.ext (FixedPoint.toScalar_zero small) (FixedPoint.toScalar_zero small)
  rw [word]
  exact Bool.and_eq_true_iff.mpr ⟨same, same⟩

end MotionVector

end SphereMotion
