import Mathlib
import SphereMotion.Proofs.DoubleArithmetic
import SphereMotion.Proofs.ExactReal

namespace SphereMotion

open Scalar

/-- The order of the values. -/
def Extended.Less : Extended → Extended → Prop
  | below, real _ | below, above | real _, above => True
  | real r, real s => r < s
  | _, _ => False

/-- A value that is neither less than one number nor greater than another lies between them, if it is defined. -/
theorem Extended.eq_undefined_or_real {v : Extended} {low high : ℝ} (notLess : ¬v.Less (.real low))
    (notGreater : ¬(real high).Less v) : v = .undefined ∨ ∃ r, v = .real r ∧ low ≤ r ∧ r ≤ high := by
  cases v with
  | undefined => exact .inl rfl
  | below => exact absurd trivial notLess
  | above => exact absurd trivial notGreater
  | real r => exact .inr ⟨r, rfl, not_lt.mp notLess, not_lt.mp notGreater⟩

open RealValued in
/-- Scalars that are compared by their values. -/
class LawfulOrder (α : Type) [Scalar α] [RealValued α] : Prop where
  lt_iff {x y : α} : x < y ↔ (value x).Less (value y)
  beq_iff {x y : α} {a b : ℝ} : value x = .real a → value y = .real b → ((x == y) = true ↔ a = b)

open RealValued in
/-- Scalars whose infinities are not changed by a positive factor, nor the undefined value by any. -/
class LawfulInfinities (α : Type) [Scalar α] [RealValued α] : Prop where
  mul_of_above {x y : α} {b : ℝ} : value x = .above → value y = .real b → 0 < b → value (x * y) = .above
  mul_of_below {x y : α} {b : ℝ} : value x = .below → value y = .real b → 0 < b → value (x * y) = .below
  mul_of_undefined {x : α} (y : α) : value x = .undefined → value (x * y) = .undefined

open Classical in
instance : LawfulOrder Exact where
  lt_iff {x y} := by cases x <;> cases y <;> exact Iff.rfl
  beq_iff left right := by
    rw [Exact.eq_real_of_extended left, Exact.eq_real_of_extended right, Exact.real_beq]

instance : LawfulInfinities Exact where
  mul_of_above {x _ _} above := by cases x <;> cases above
  mul_of_below {x _ _} below := by cases x <;> cases below
  mul_of_undefined {x} y undefined := by
    cases x with
    | undefined => cases y <;> rfl
    | real a => cases undefined

namespace Binary64

open Float.Model UnpackedFloat

/-- Floats in their stored form are ordered by their exponents first. -/
theorem Holds.lt_iff {m n : Nat} {e d : Int} (holds : Holds m e) (holds' : Holds n d) :
    (m : ℝ) * 2 ^ e < n * 2 ^ d ↔ e < d ∨ e = d ∧ m < n := by
  have less {m n : Nat} {e d : Int} (holds : Holds m e) (holds' : Holds n d) (order : e < d) :
      (m : ℝ) * 2 ^ e < n * 2 ^ d := by
    have unit : (0 : ℝ) < 2 ^ e := zpow_pos (by norm_num) e
    have long : 2 ^ 52 ≤ n := holds'.2.2.resolve_right (by have := holds.2.1; omega)
    have long' : (2 ^ 52 : ℝ) ≤ n := by exact_mod_cast long
    have short : (m : ℝ) < 2 ^ 53 := by exact_mod_cast holds.1
    have power : (2 : ℝ) ^ e * 2 ≤ 2 ^ d := by
      rw [← zpow_add_one₀ (by norm_num)]
      exact zpow_le_zpow_right₀ (by norm_num) (by omega)
    calc (m : ℝ) * 2 ^ e < 2 ^ 53 * 2 ^ e := mul_lt_mul_of_pos_right short unit
      _ = 2 ^ 52 * (2 ^ e * 2) := by ring
      _ ≤ n * 2 ^ d := mul_le_mul long' power (by positivity) (by positivity)
  rcases lt_trichotomy e d with order | rfl | order
  · exact ⟨fun _ => .inl order, fun _ => less holds holds' order⟩
  · rw [mul_lt_mul_iff_left₀ (zpow_pos (by norm_num) e), Nat.cast_lt]
    exact ⟨fun shorter => .inr ⟨rfl, shorter⟩, fun either => by omega⟩
  · exact ⟨fun lower => absurd (less holds' holds order) lower.asymm, fun either => by omega⟩

/-- Comparing exponents first and then mantissas compares the numbers. -/
theorem Holds.then_compare {m n : Nat} {e d : Int} (holds : Holds m e) (holds' : Holds n d) :
    (compare e d).then (compare m n) = cmp ((m : ℝ) * 2 ^ e) (n * 2 ^ d) := by
  rcases lt_trichotomy e d with lower | rfl | higher
  · rw [compare_lt_iff_lt.mpr lower, (cmp_eq_lt_iff _ _).mpr ((holds.lt_iff holds').mpr (.inl lower))]
    rfl
  · rw [cmp_mul_pos_right (zpow_pos (by norm_num) e), compare_eq_iff_eq.mpr rfl]
    rcases lt_trichotomy m n with shorter | rfl | longer
    · rw [compare_lt_iff_lt.mpr shorter, (cmp_eq_lt_iff _ _).mpr (by exact_mod_cast shorter)]
      rfl
    · rw [compare_eq_iff_eq.mpr rfl, cmp_self_eq_eq]
      rfl
    · rw [compare_gt_iff_gt.mpr longer, (cmp_eq_gt_iff _ _).mpr (by exact_mod_cast longer)]
      rfl
  · rw [compare_gt_iff_gt.mpr higher, (cmp_eq_gt_iff _ _).mpr ((holds'.lt_iff holds).mpr (.inl higher))]
    rfl

/-- Two numbers compare as what they stand for. -/
theorem Number.compare_eq {s t : Sign} {u v : UnpackedFloat} {a b : ℝ} (left : Number s u a)
    (right : Number t v b) :
    u.compare v = some (cmp (signed s a) (signed t b)) := by
  cases left with
  | zero =>
    rw [signed_zero]
    cases right with
    | zero => rw [signed_zero, cmp_self_eq_eq]; rfl
    | @finite n d positive holds =>
      have more : (0 : ℝ) < n * 2 ^ d := by positivity
      cases t with
      | negative => rw [signed, (cmp_eq_gt_iff _ _).mpr (neg_lt_zero.mpr more)]; rfl
      | positive => rw [signed, (cmp_eq_lt_iff _ _).mpr more]; rfl
  | @finite m e positive holds =>
    have more : (0 : ℝ) < m * 2 ^ e := by positivity
    cases right with
    | zero =>
      rw [signed_zero]
      cases s with
      | negative => rw [signed, (cmp_eq_lt_iff _ _).mpr (neg_lt_zero.mpr more)]; rfl
      | positive => rw [signed, (cmp_eq_gt_iff _ _).mpr more]; rfl
    | @finite n d positive' holds' =>
      have more' : (0 : ℝ) < n * 2 ^ d := by positivity
      have alike := holds.then_compare holds'
      cases s <;> cases t
      case positive.positive => rw [signed, signed, ← alike]; rfl
      case positive.negative => rw [signed, signed, (cmp_eq_gt_iff _ _).mpr (by linarith)]; rfl
      case negative.positive => rw [signed, signed, (cmp_eq_lt_iff _ _).mpr (by linarith)]; rfl
      case negative.negative =>
        have turned : cmp (-(m * 2 ^ e) : ℝ) (-(n * 2 ^ d)) = cmp ((n : ℝ) * 2 ^ d) (m * 2 ^ e) := by
          rcases lt_trichotomy ((m : ℝ) * 2 ^ e) (n * 2 ^ d) with less | same | greater
          · rw [(cmp_eq_gt_iff _ _).mpr (neg_lt_neg less), (cmp_eq_gt_iff _ _).mpr less]
          · rw [same, cmp_self_eq_eq, cmp_self_eq_eq]
          · rw [(cmp_eq_lt_iff _ _).mpr (neg_lt_neg greater), (cmp_eq_lt_iff _ _).mpr greater]
        rw [signed, signed, turned, ← cmp_swap, ← alike]
        rfl

theorem lt_iff_less_of_not_isNumber {u v : UnpackedFloat} (none : IsNumber u = false ∨ IsNumber v = false) :
    UnpackedFloat.lt u v = true ↔ (extended u).Less (extended v) := by
  cases u with
  | notANumber => cases v <;> simp [UnpackedFloat.lt, UnpackedFloat.compare, extended, Extended.Less]
  | infinity s =>
    cases v with
    | infinity t =>
      cases s <;> cases t <;> simp [UnpackedFloat.lt, UnpackedFloat.compare, extended, Extended.Less, compare]
    | _ => cases s <;> simp [UnpackedFloat.lt, UnpackedFloat.compare, extended, Extended.Less]
  | zero s =>
    cases v with
    | infinity t => cases t <;> simp [UnpackedFloat.lt, UnpackedFloat.compare, extended, Extended.Less]
    | notANumber => simp [UnpackedFloat.lt, UnpackedFloat.compare, extended, Extended.Less]
    | zero => simp [IsNumber] at none
    | finite => simp [IsNumber] at none
  | finite s m e positive =>
    cases v with
    | infinity t => cases t <;> simp [UnpackedFloat.lt, UnpackedFloat.compare, extended, Extended.Less]
    | notANumber => simp [UnpackedFloat.lt, UnpackedFloat.compare, extended, Extended.Less]
    | zero => simp [IsNumber] at none
    | finite => simp [IsNumber] at none

theorem lt_iff_less {x y : Float.Model} :
    UnpackedFloat.lt x.unpack y.unpack = true ↔ (extended x.unpack).Less (extended y.unpack) := by
  by_cases numbers : IsNumber x.unpack = true ∧ IsNumber y.unpack = true
  · obtain ⟨a, b, left, right⟩ := exists_of_isNumber numbers
    obtain ⟨s, c, number, rfl⟩ := exists_number left
    obtain ⟨t, d, number', rfl⟩ := exists_number right
    rw [left, right, UnpackedFloat.lt, number.compare_eq number', beq_iff_eq, Option.some_inj, cmp_eq_lt_iff]
    exact Iff.rfl
  · refine lt_iff_less_of_not_isNumber ?_
    rwa [not_and_or, Bool.not_eq_true, Bool.not_eq_true] at numbers

theorem beq_iff_eq_of_real {x y : Float.Model} {a b : ℝ} (left : extended x.unpack = .real a)
    (right : extended y.unpack = .real b) : UnpackedFloat.beq x.unpack y.unpack = true ↔ a = b := by
  obtain ⟨s, c, number, rfl⟩ := exists_number left
  obtain ⟨t, d, number', rfl⟩ := exists_number right
  rw [UnpackedFloat.beq, number.compare_eq number', beq_iff_eq, Option.some_inj, cmp_eq_eq_iff]

/-- A word without the sign bit does not stand for a negative number. -/
theorem not_less_unpack_packComponents (exponent : BitVec 11) (fraction : BitVec 52) :
    ¬(extended (UnpackedFloat.unpack .binary64 (packComponents .binary64 .positive exponent fraction))).Less
      (.real 0) := by
  rw [UnpackedFloat.unpack]
  simp only [unpackSign_packComponents, unpackExponent_packComponents, unpackMantissa_packComponents]
  split_ifs
  · exact id
  · exact id
  · exact lt_irrefl _
  · exact not_lt.mpr (mul_nonneg (Nat.cast_nonneg _) (zpow_nonneg (by norm_num) _))
  · exact not_lt.mpr (mul_nonneg (Nat.cast_nonneg _) (zpow_nonneg (by norm_num) _))

/-- A square root is not negative, whatever it is taken of. -/
theorem not_less_sqrt (x : Float.Model) : ¬(extended x.sqrt.unpack).Less (.real 0) := by
  have finite (m : Nat) (e : Int) (positive : 0 < m) :
      ¬(extended (Float.Model.pack (.finite .positive m e positive)).unpack).Less (.real 0) := by
    change ¬(extended (UnpackedFloat.unpack .binary64 (UnpackedFloat.pack .binary64 _))).Less _
    simp only [UnpackedFloat.pack, packedInfinity]
    split_ifs <;> exact not_less_unpack_packComponents _ _
  rw [Float.Model.sqrt]
  generalize x.unpack = u
  cases u with
  | notANumber => exact id
  | infinity s => cases s <;> exact id
  | zero s => cases s <;> exact lt_irrefl _
  | finite s m e positive =>
    cases s with
    | negative =>
      change ¬(extended (Float.Model.pack .notANumber).unpack).Less _
      exact id
    | positive =>
      rw [UnpackedFloat.sqrt]
      simp only [roundWithAccuracy]
      split_ifs
      · exact lt_irrefl _
      · exact finite _ _ _

/-- The undefined value keeps whatever is multiplied by it undefined. -/
theorem extended_mul_of_undefined {x : Float.Model} (y : Float.Model) (undefined : extended x.unpack = .undefined) :
    extended (x * y).unpack = .undefined := by
  change extended (Float.Model.pack (UnpackedFloat.mul .binary64 x.unpack y.unpack)).unpack = _
  generalize x.unpack = u at undefined
  obtain rfl : u = .notANumber := by
    cases u with
    | notANumber => rfl
    | infinity s => cases s <;> cases undefined
    | zero | finite => cases undefined
  have kept : UnpackedFloat.mul .binary64 .notANumber y.unpack = .notANumber := by cases y.unpack <;> rfl
  rw [kept]
  rfl

/-- A positive factor leaves an infinity as it is. -/
theorem extended_mul_of_infinity {x y : Float.Model} {s : Sign} {b : ℝ}
    (left : extended x.unpack = extended (.infinity s)) (right : extended y.unpack = .real b) (positive : 0 < b) :
    extended (x * y).unpack = extended (.infinity s) := by
  change extended (Float.Model.pack (UnpackedFloat.mul .binary64 x.unpack y.unpack)).unpack = _
  obtain ⟨t, d, number, rfl⟩ := exists_number right
  generalize x.unpack = u at left
  generalize y.unpack = v at number
  obtain rfl : u = .infinity s := by
    cases u with
    | infinity t => cases s <;> cases t <;> first | rfl | cases left
    | notANumber | zero | finite => cases s <;> cases left
  cases number with
  | zero => exact absurd positive (by rw [signed_zero]; exact lt_irrefl _)
  | @finite n d more holds =>
    obtain rfl : t = .positive := by
      cases t with
      | positive => rfl
      | negative => exact absurd positive (not_lt.mpr (neg_nonpos.mpr (by positivity)))
    have kept : UnpackedFloat.mul .binary64 (.infinity s) (.finite .positive n d more) = .infinity s := by
      cases s <;> rfl
    rw [kept, unpack_pack_of_not_finite (by simp)]

end Binary64

instance : LawfulOrder Double where
  lt_iff {x y} := (decide_eq_true_iff (p := x.value.toModel < y.value.toModel)).trans Binary64.lt_iff_less
  beq_iff := Binary64.beq_iff_eq_of_real

instance : LawfulInfinities Double where
  mul_of_above above := Binary64.extended_mul_of_infinity (s := .positive) above
  mul_of_below below := Binary64.extended_mul_of_infinity (s := .negative) below
  mul_of_undefined y := Binary64.extended_mul_of_undefined y.value.toModel

end SphereMotion
