import Mathlib
import SphereMotion.Proofs.DoubleArithmetic
import SphereMotion.Proofs.FixedPoints

namespace SphereMotion

open Scalar

variable {α : Type} [Scalar α] [RealValued α] {precision : Nat}

namespace FixedPoint

/-- A word as the number of units in `r`, rounded, with nothing cut off. -/
structure Quantizes (word : Int32) (r : ℝ) (precision : Nat) : Prop where
  rounded : word.toInt = halfAway (r * 2 ^ precision)
  near : |word.toInt - r * 2 ^ precision| ≤ 1 / 2

theorem Quantizes.of_rounded {word : Int32} {r : ℝ} (rounded : word.toInt = halfAway (r * 2 ^ precision)) :
    Quantizes word r precision :=
  ⟨rounded, rounded ▸ abs_halfAway_sub_le _⟩

/-- What no word of 32 bits stands for: no real number, or too many units. -/
def Misfits (precision : Nat) : Extended → Prop
  | .undefined | .below | .above => True
  | .real r => ¬FitsWord r precision

/-- A number of units that fits is rounded without an error before. -/
theorem round_of_fits {x : α} {r : ℝ} (small : precision < 63) (real : RealValued.value x = .real r)
    (fits : FitsWord r precision) : round x precision = .whole (halfAway (r * 2 ^ precision)) := by
  have product := RealValued.mul real (value_scale (α := α) small)
  have lower : (-2 ^ 31 : ℝ) ≤ halfAway (r * 2 ^ precision) := by exact_mod_cast fits.lower
  have upper : (halfAway (r * 2 ^ precision) : ℝ) < 2 ^ 31 := by exact_mod_cast fits.upper
  obtain ⟨nearBelow, nearAbove⟩ := abs_le.mp (abs_halfAway_sub_le (r * 2 ^ precision))
  have few : |r * 2 ^ precision| < 2 ^ 1023 := by
    refine lt_of_lt_of_le ?_ (pow_le_pow_right₀ (by norm_num) (by norm_num : 32 ≤ 1023))
    rw [abs_lt]
    constructor <;> linarith only [lower, upper, nearBelow, nearAbove]
  rw [round, RealValued.nearest_eq, product.eq_real ((RealValued.holds_value real).mul_two_pow precision) few]
  rfl

theorem ofScalar?_eq_some_iff {x : α} {word : Int32} (small : precision < 63) :
    ofScalar? x precision = some word ↔
      ∃ r, RealValued.value x = .real r ∧ FitsWord r precision ∧ Quantizes word r precision := by
  constructor
  · intro written
    obtain ⟨r, real, fits, units, -⟩ := exists_of_isSome small (Option.isSome_of_eq_some written)
    obtain rfl := Option.some.inj (written.symm.trans units)
    exact ⟨r, real, fits, .of_rounded (Int32.toInt_ofInt_of_le fits.lower fits.upper)⟩
  · rintro ⟨r, real, fits, quantizes⟩
    have upper := fits.upper
    have inRange : Int32.minValue.toInt ≤ halfAway (r * 2 ^ precision) ∧
        halfAway (r * 2 ^ precision) ≤ Int32.maxValue.toInt := ⟨fits.lower, by change _ ≤ 2147483647; omega⟩
    rw [ofScalar?, round_of_fits small real fits, Nearest.toInt32?, if_pos inRange, ← quantizes.rounded,
      Int32.ofInt_toInt]

theorem ofScalar?_eq_none_iff {x : α} (small : precision < 63) :
    ofScalar? x precision = none ↔ Misfits precision (RealValued.value x) := by
  rw [← Option.not_isSome_iff_eq_none, Option.isSome_iff_exists]
  simp only [ofScalar?_eq_some_iff small]
  cases RealValued.value x with
  | undefined | below | above => simp [Misfits]
  | real r =>
    simp only [Extended.real.injEq, Misfits]
    refine not_congr ⟨?_, fun fits => ?_⟩
    · rintro ⟨_, _, rfl, inRange, -⟩
      exact inRange
    · exact ⟨Int32.ofInt (halfAway (r * 2 ^ precision)), r, rfl, fits,
        .of_rounded (Int32.toInt_ofInt_of_le fits.lower fits.upper)⟩

/-- Every word fits as the number that it reads as. -/
theorem ofScalar?_toScalar (word : Int32) (small : precision ≤ 53) :
    ofScalar? (toScalar word precision : α) precision = some word := by
  have units : halfAway (word.toInt / 2 ^ precision * 2 ^ precision) = word.toInt := by
    rw [div_mul_cancel₀ _ (by positivity), halfAway_intCast]
  exact (ofScalar?_eq_some_iff (by omega)).mpr ⟨_, (counts_toScalar word small).value,
    ⟨units.symm ▸ word.le_toInt, units.symm ▸ word.toInt_lt⟩, .of_rounded units.symm⟩

end FixedPoint

namespace MotionVector

open FixedPoint

omit [RealValued α] in
theorem ofVec2?_eq_some_iff {motion : Vec2 α} {mv : MotionVector} : ofVec2? motion precision = some mv ↔
    ofScalar? motion.x precision = some mv.horizontal ∧ ofScalar? motion.y precision = some mv.vertical := by
  obtain ⟨horizontal, vertical⟩ := mv
  unfold ofVec2?
  cases ofScalar? motion.x precision <;> cases ofScalar? motion.y precision <;> simp

/-- With up to 53 fractional bits words are read exactly and written back as they were. A motion is
refused just where a component is no real number or its rounded number of units is not one of 32 bits, and
else it is that rounding. -/
theorem words_exact (small : precision ≤ 53) :
    (∀ word : Int32, RealValued.value (toScalar word precision : α) = .real (word.toInt / 2 ^ precision) ∧
      ofScalar (toScalar word precision : α) precision = word) ∧
    (∀ mv : MotionVector, ofVec2? (mv.toVec2 precision : Vec2 α) precision = some mv) ∧
    ∀ motion : Vec2 α, (ofVec2? motion precision = none ↔
        Misfits precision (RealValued.value motion.x) ∨ Misfits precision (RealValued.value motion.y)) ∧
      ∀ mv, ofVec2? motion precision = some mv → ∃ x y, RealValued.value motion.x = .real x ∧
        RealValued.value motion.y = .real y ∧ Quantizes mv.horizontal x precision ∧
          Quantizes mv.vertical y precision := by
  refine ⟨fun word => ⟨(counts_toScalar word small).value, ofScalar_toScalar word small⟩, fun mv => ?_,
    fun motion => ⟨?_, fun mv told => ?_⟩⟩
  · exact ofVec2?_eq_some_iff.mpr ⟨ofScalar?_toScalar _ small, ofScalar?_toScalar _ small⟩
  · rw [← ofScalar?_eq_none_iff (by omega), ← ofScalar?_eq_none_iff (by omega), ← Option.not_isSome_iff_eq_none,
      isSome_ofVec2?_iff, not_and_or, Option.not_isSome_iff_eq_none, Option.not_isSome_iff_eq_none]
  · obtain ⟨horizontal, vertical⟩ := ofVec2?_eq_some_iff.mp told
    obtain ⟨x, atX, -, quantizesX⟩ := (ofScalar?_eq_some_iff (by omega)).mp horizontal
    obtain ⟨y, atY, -, quantizesY⟩ := (ofScalar?_eq_some_iff (by omega)).mp vertical
    exact ⟨x, y, atX, atY, quantizesX, quantizesY⟩

/-- The words with the least and the greatest number of units go all the way with 53 fractional bits, half a
unit beyond them is refused at once, and a quarter of one is rounded away. -/
theorem words_exact_of_extremes :
    let mv : MotionVector := ⟨Int32.minValue, Int32.maxValue⟩
    let beyond : Vec2 Double := ⟨.ofBits 0x41dfffffffe00000, .undefined⟩
    let inside : Vec2 Double := ⟨.ofBits 0xc1e0000000080000, .ofBits 0x41dfffffffd00000⟩
    53 ≤ 53 ∧ RealValued.value (toScalar mv.horizontal 53 : Double) = .real (mv.horizontal.toInt / 2 ^ 53) ∧
      ofVec2? (mv.toVec2 53 : Vec2 Double) 53 = some mv ∧ ofVec2? beyond 0 = none ∧
      (Misfits 0 (RealValued.value beyond.x) ∨ Misfits 0 (RealValued.value beyond.y)) ∧
      ofVec2? inside 0 = some mv ∧ ∃ x y, RealValued.value inside.x = .real x ∧
        RealValued.value inside.y = .real y ∧
        Quantizes mv.horizontal x 0 ∧ Quantizes mv.vertical y 0 := by
  intro mv beyond inside
  obtain ⟨words, vectors, -⟩ := words_exact (α := Double) (le_refl 53)
  obtain ⟨-, -, motions⟩ := words_exact (α := Double) (Nat.zero_le 53)
  have refused : ofVec2? beyond 0 = none := by decide
  have told : ofVec2? inside 0 = some mv := by decide
  exact ⟨le_rfl, (words mv.horizontal).1, vectors mv, refused, (motions beyond).1.mp refused, told,
    (motions inside).2 mv told⟩

end MotionVector

end SphereMotion
