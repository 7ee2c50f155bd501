import Mathlib
import SphereMotion.Scalar

namespace SphereMotion

open Scalar

inductive Extended where
  | undefined
  | below
  | above
  | real (r : ℝ)

/-- The whole number nearest to a real number, a half going away from zero. -/
noncomputable def halfAway (x : ℝ) : ℤ := if 0 ≤ x then ⌊x + 1 / 2⌋ else ⌈x - 1 / 2⌉

theorem abs_halfAway_sub_le (x : ℝ) : |halfAway x - x| ≤ 1 / 2 := by
  rw [halfAway, abs_le]
  split
  · have lower := Int.sub_one_lt_floor (x + 1 / 2)
    have upper := Int.floor_le (x + 1 / 2)
    constructor <;> linarith
  · have lower := Int.le_ceil (x - 1 / 2)
    have upper := Int.ceil_lt_add_one (x - 1 / 2)
    constructor <;> linarith

theorem halfAway_eq_of_abs_lt {x : ℝ} {n : ℤ} (near : |x - n| < 1 / 2) : halfAway x = n := by
  have close := abs_le.mp (abs_halfAway_sub_le x)
  rw [abs_lt] at near
  have above : (halfAway x : ℝ) < n + 1 := by linarith
  have below : (n : ℝ) < halfAway x + 1 := by linarith
  have above' : halfAway x < n + 1 := by exact_mod_cast above
  have below' : n < halfAway x + 1 := by exact_mod_cast below
  omega

theorem halfAway_intCast (n : ℤ) : halfAway n = n := halfAway_eq_of_abs_lt (by norm_num)

theorem halfAway_zero : halfAway 0 = 0 := by exact_mod_cast halfAway_intCast 0

theorem halfAway_neg (x : ℝ) : halfAway (-x) = -halfAway x := by
  have ceil (y : ℝ) : ⌈-y - 1 / 2⌉ = -⌊y + 1 / 2⌋ := by rw [← Int.ceil_neg]; ring_nf
  have floor (y : ℝ) : ⌊-y + 1 / 2⌋ = -⌈y - 1 / 2⌉ := by rw [← Int.floor_neg]; ring_nf
  rcases lt_trichotomy x 0 with negative | rfl | positive
  · rw [halfAway, halfAway, if_pos (by linarith), if_neg (by linarith), floor]
  · rw [neg_zero, halfAway_zero, neg_zero]
  · rw [halfAway, halfAway, if_neg (by linarith), if_pos positive.le, ceil]

/-- But for the halves, a whole number may be added before rounding or after. -/
theorem halfAway_add_intCast {x : ℝ} (noHalf : ∀ n : ℤ, x ≠ n + 1 / 2) (n : ℤ) :
    halfAway (x + n) = halfAway x + n := by
  obtain ⟨lower, upper⟩ := abs_le.mp (abs_halfAway_sub_le x)
  have notLower : x ≠ halfAway x + 1 / 2 := noHalf (halfAway x)
  have notUpper : x ≠ halfAway x - 1 / 2 := by
    have other := noHalf (halfAway x - 1)
    push_cast at other
    intro half
    exact other (by linarith)
  have lower' := lt_of_le_of_ne (show x - 1 / 2 ≤ halfAway x by linarith) fun half => notLower (by linarith)
  have upper' := lt_of_le_of_ne (show (halfAway x : ℝ) ≤ x + 1 / 2 by linarith) fun half => notUpper (by linarith)
  apply halfAway_eq_of_abs_lt
  push_cast
  rw [abs_lt]
  constructor <;> linarith

/-- A number that is, in units of `2 ^ (-precision)`, rounded to a word of 32 bits. -/
structure FitsWord (x : ℝ) (precision : Nat) : Prop where
  lower : -2 ^ 31 ≤ halfAway (x * 2 ^ precision)
  upper : halfAway (x * 2 ^ precision) < 2 ^ 31

noncomputable def Extended.nearest : Extended → Nearest
  | undefined => .undefined
  | below => .below
  | above => .above
  | real r => .whole (halfAway r)

theorem Extended.eq_real_of_nearest {v : Extended} {n : ℤ} (rounded : v.nearest = .whole n) :
    ∃ r, v = .real r ∧ halfAway r = n := by
  cases v <;> cases rounded
  exact ⟨_, rfl, rfl⟩

/-- A power of two as a multiple of a smaller one. -/
theorem two_zpow_eq_mul {e d : ℤ} (order : e ≤ d) : (2 : ℝ) ^ d = 2 ^ (d - e).toNat * 2 ^ e := by
  rw [← zpow_natCast, ← zpow_add₀ two_ne_zero]
  congr 1
  omega

/-- The real numbers that doubles hold, and those that they would hold if their exponents had no upper limit. -/
def IsFloat (x : ℝ) : Prop := ∃ m e : ℤ, |m| < 2 ^ 53 ∧ -1074 ≤ e ∧ x = m * 2 ^ e

namespace IsFloat

theorem neg {x : ℝ} (float : IsFloat x) : IsFloat (-x) := by
  obtain ⟨m, e, small, least, rfl⟩ := float
  exact ⟨-m, e, by rwa [abs_neg], least, by push_cast; ring⟩

theorem of_abs_le {m e : ℤ} (small : |m| ≤ 2 ^ 53) (least : -1074 ≤ e) : IsFloat (m * 2 ^ e) := by
  rcases small.lt_or_eq with less | full
  · exact ⟨m, e, less, least, rfl⟩
  -- A mantissa of 54 digits is a power of two and gives way to the next exponent.
  · have half : m = 2 ^ 52 * 2 ∨ m = -2 ^ 52 * 2 := by
      rcases abs_eq (by norm_num) |>.mp full with rfl | rfl <;> norm_num
    rcases half with rfl | rfl
    · refine ⟨2 ^ 52, e + 1, by norm_num, by omega, ?_⟩
      rw [zpow_add₀ (by norm_num)]
      push_cast
      ring
    · refine ⟨-2 ^ 52, e + 1, by norm_num, by omega, ?_⟩
      rw [zpow_add₀ (by norm_num)]
      push_cast
      ring

theorem intCast {n : ℤ} (small : |n| ≤ 2 ^ 53) : IsFloat n := by simpa using of_abs_le (e := 0) small (by norm_num)

theorem two_zpow {e : ℤ} (least : -1074 ≤ e) : IsFloat (2 ^ e) := by
  simpa using of_abs_le (m := 1) (e := e) (by norm_num) least

theorem div_two_pow {m : ℤ} {j : Nat} (small : |m| ≤ 2 ^ 53) (least : j ≤ 1074) : IsFloat (m / 2 ^ j) := by
  have float := of_abs_le (e := -j) small (by omega)
  rwa [zpow_neg, zpow_natCast, ← div_eq_mul_inv] at float

theorem half {n : Nat} (small : n ≤ 2 ^ 53) : IsFloat (n / 2) := by
  simpa using div_two_pow (m := n) (j := 1) (by rw [Nat.abs_cast]; exact_mod_cast small) (by norm_num)

theorem mul_two_pow {x : ℝ} (float : IsFloat x) (k : Nat) : IsFloat (x * 2 ^ k) := by
  obtain ⟨m, e, small, least, rfl⟩ := float
  refine ⟨m, e + k, small, by omega, ?_⟩
  rw [zpow_add₀ (by norm_num), zpow_natCast, mul_assoc]

/-- A float that is not too small is a multiple of a power of two. -/
theorem exists_eq_mul {x : ℝ} (float : IsFloat x) {j : ℤ} (large : 2 ^ (j + 52) ≤ |x|) :
    ∃ n : ℤ, x = n * 2 ^ j := by
  obtain ⟨m, e, small, -, rfl⟩ := float
  have exponent : j ≤ e := by
    by_contra less
    have factor : (2 : ℝ) ^ e ≤ 2 ^ (j - 1) := zpow_le_zpow_right₀ (by norm_num) (by omega)
    have small' : |(m : ℝ)| < 2 ^ 53 := by exact_mod_cast small
    have shrunk : |(m : ℝ) * 2 ^ e| < 2 ^ 53 * 2 ^ (j - 1) := by
      rw [abs_mul, abs_of_pos (zpow_pos (by norm_num) e : (0 : ℝ) < 2 ^ e)]
      exact mul_lt_mul small' factor (zpow_pos (by norm_num) _) (by norm_num)
    have whole : (2 : ℝ) ^ 53 * 2 ^ (j - 1) = 2 ^ (j + 52) := by
      rw [← zpow_natCast, ← zpow_add₀ (by norm_num)]
      congr 1
      push_cast
      ring
    linarith
  refine ⟨m * 2 ^ (e - j).toNat, ?_⟩
  rw [two_zpow_eq_mul exponent]
  push_cast
  ring

end IsFloat

/-- How the scalars of a type compute. -/
inductive Arithmetic where
  | exact
  | binary64

namespace Arithmetic

def Holds : Arithmetic → ℝ → Prop
  | exact, _ => True
  | binary64, x => IsFloat x

/-- A number `r` as the result of an operation that ought to give `x`. -/
structure Rounds (a : Arithmetic) (x r : ℝ) : Prop where
  holds : a.Holds r
  nearest {s : ℝ} : a.Holds s → |r - x| ≤ |s - x|

theorem Holds.of_isFloat {a : Arithmetic} {x : ℝ} (float : IsFloat x) : a.Holds x := by
  cases a with
  | exact => trivial
  | binary64 => exact float

theorem Holds.neg {a : Arithmetic} {x : ℝ} (holds : a.Holds x) : a.Holds (-x) := by
  cases a with
  | exact => trivial
  | binary64 => exact IsFloat.neg holds

theorem Holds.mul_two_pow {a : Arithmetic} {x : ℝ} (holds : a.Holds x) (k : Nat) : a.Holds (x * 2 ^ k) := by
  cases a with
  | exact => trivial
  | binary64 => exact IsFloat.mul_two_pow holds k

namespace Rounds

variable {a : Arithmetic} {x r s : ℝ}

theorem of_holds (holds : a.Holds x) : a.Rounds x x where
  holds := holds
  nearest _ := by
    rw [sub_self, abs_zero]
    exact abs_nonneg _

theorem eq_of_holds (rounds : a.Rounds x r) (holds : a.Holds x) : r = x := by
  have none := rounds.nearest holds
  rw [sub_self, abs_zero, abs_nonpos_iff, sub_eq_zero] at none
  exact none

theorem eq_of_exact (rounds : Rounds .exact x r) : r = x := rounds.eq_of_holds trivial

theorem le_of_le (rounds : a.Rounds x r) (holds : a.Holds s) (below : s ≤ x) : s ≤ r := by
  by_contra less
  have near := rounds.nearest holds
  rw [abs_of_nonpos (by linarith), abs_of_nonpos (by linarith)] at near
  linarith

theorem ge_of_ge (rounds : a.Rounds x r) (holds : a.Holds s) (above : x ≤ s) : r ≤ s := by
  by_contra greater
  have near := rounds.nearest holds
  rw [abs_of_nonneg (by linarith), abs_of_nonneg (by linarith)] at near
  linarith

/-- What is rounded up from a number does not lie below the middle between the two. -/
theorem add_le_of_lt (rounds : a.Rounds x r) (holds : a.Holds s) (less : s < r) : s + r ≤ 2 * x := by
  by_contra below
  have near := rounds.nearest holds
  have nearer : |s - x| < r - x := by
    rw [abs_lt]
    constructor <;> linarith
  exact absurd (near.trans_lt nearer) (not_lt.mpr (le_abs_self _))

theorem neg (rounds : a.Rounds x r) : a.Rounds (-x) (-r) where
  holds := rounds.holds.neg
  nearest {s} holds := by
    have near := rounds.nearest holds.neg
    rwa [← abs_neg, show -(r - x) = -r - -x by ring, ← abs_neg (-s - x), show -(-s - x) = s - -x by ring] at near

/-- Rounding errs by at most half a unit in the last of 53 places. -/
theorem abs_sub_le (rounds : a.Rounds x r) {j : ℤ} (small : |x| ≤ 2 ^ j) (least : -1021 ≤ j) :
    |r - x| ≤ 2 ^ (j - 54) := by
  have unit : (0 : ℝ) < 2 ^ (j - 53) := zpow_pos (by norm_num) _
  have full : (2 : ℝ) ^ 53 * 2 ^ (j - 53) = 2 ^ j := by
    rw [← zpow_natCast, ← zpow_add₀ (by norm_num)]
    congr 1
    push_cast
    ring
  have halved : (2 : ℝ) ^ (j - 54) = 1 / 2 * 2 ^ (j - 53) := by
    rw [show j - 53 = j - 54 + 1 by ring, zpow_add₀ (by norm_num)]
    ring
  -- The candidate is the nearest multiple of the unit in the last place.
  have near := abs_sub_round (x / 2 ^ (j - 53))
  have short : |round (x / 2 ^ (j - 53))| ≤ 2 ^ 53 := by
    have scaled : |x / 2 ^ (j - 53)| ≤ 2 ^ 53 := by
      rwa [abs_div, abs_of_pos unit, div_le_iff₀ unit, full]
    rw [abs_le] at scaled near ⊢
    have upper : (round (x / 2 ^ (j - 53)) : ℝ) < 2 ^ 53 + 1 := by linarith
    have lower : (-2 ^ 53 - 1 : ℝ) < round (x / 2 ^ (j - 53)) := by linarith
    have upper' : round (x / 2 ^ (j - 53)) < 2 ^ 53 + 1 := by exact_mod_cast upper
    have lower' : -2 ^ 53 - 1 < round (x / 2 ^ (j - 53)) := by exact_mod_cast lower
    omega
  have candidate := rounds.nearest (.of_isFloat (.of_abs_le short (by omega : -1074 ≤ j - 53)))
  have distance : |(round (x / 2 ^ (j - 53)) : ℝ) * 2 ^ (j - 53) - x| =
      |x / 2 ^ (j - 53) - round (x / 2 ^ (j - 53))| * 2 ^ (j - 53) := by
    rw [← abs_of_pos unit, ← abs_mul, abs_of_pos unit, abs_sub_comm, sub_mul, div_mul_cancel₀ _ unit.ne']
  rw [distance] at candidate
  rw [halved]
  exact candidate.trans (mul_le_mul_of_nonneg_right near unit.le)

end Rounds

/-- The value of an operation that ought to give `x`. One that is too large for the scalars is infinite. -/
inductive Gives (a : Arithmetic) (x : ℝ) : Extended → Prop
  | real {r : ℝ} (rounds : a.Rounds x r) : Gives a x (.real r)
  | above (inexact : a = .binary64) (large : 2 ^ 1023 ≤ x) : Gives a x .above
  | below (inexact : a = .binary64) (large : x ≤ -2 ^ 1023) : Gives a x .below

namespace Gives

variable {a : Arithmetic} {x r : ℝ} {v : Extended}

theorem rounds (gives : a.Gives x (.real r)) : a.Rounds x r := by
  cases gives with
  | real rounds => exact rounds

/-- A result that is not too large for the scalars is rounded. -/
theorem exists_rounds (gives : a.Gives x v) (small : |x| < 2 ^ 1023) : ∃ r, v = .real r ∧ a.Rounds x r := by
  rw [abs_lt] at small
  cases gives with
  | real rounds => exact ⟨_, rfl, rounds⟩
  | above _ large => exact absurd large (not_le.mpr small.2)
  | below _ large => exact absurd large (not_le.mpr small.1)

/-- What the scalars can hold is what comes out. -/
theorem eq_real (gives : a.Gives x v) (holds : a.Holds x) (small : |x| < 2 ^ 1023) : v = .real x := by
  obtain ⟨r, value, rounds⟩ := gives.exists_rounds small
  rw [value, rounds.eq_of_holds holds]

end Gives

end Arithmetic

/-- Scalars that stand for real numbers, infinities and the undefined value. -/
class RealValued (α : Type) [Scalar α] where
  arithmetic : Arithmetic
  value : α → Extended
  holds_value {x : α} {a : ℝ} : value x = .real a → arithmetic.Holds a
  ofInt (n : ℤ) : arithmetic.Gives n (value (Scalar.ofInt n))
  add {x y : α} {a b : ℝ} : value x = .real a → value y = .real b → arithmetic.Gives (a + b) (value (x + y))
  sub {x y : α} {a b : ℝ} : value x = .real a → value y = .real b → arithmetic.Gives (a - b) (value (x - y))
  mul {x y : α} {a b : ℝ} : value x = .real a → value y = .real b → arithmetic.Gives (a * b) (value (x * y))
  div {x y : α} {a b : ℝ} : value x = .real a → value y = .real b → b ≠ 0 →
    arithmetic.Gives (a / b) (value (x / y))
  real_of_add {x y : α} {r : ℝ} : value (x + y) = .real r → ∃ a b, value x = .real a ∧ value y = .real b
  real_of_sub {x y : α} {r : ℝ} : value (x - y) = .real r → ∃ a b, value x = .real a ∧ value y = .real b
  real_of_mul {x y : α} {r : ℝ} : value (x * y) = .real r → ∃ a b, value x = .real a ∧ value y = .real b
  real_of_div {x y : α} {r b : ℝ} : value (x / y) = .real r → value y = .real b → ∃ a, value x = .real a
  nearest_eq (x : α) : Scalar.nearest x = (value x).nearest
  isUndefined_iff {x : α} : Scalar.isUndefined x = true ↔ value x = .undefined

theorem RealValued.value_ofInt {α : Type} [Scalar α] [RealValued α] {n : ℤ} (small : |n| ≤ 2 ^ 53) :
    value (Scalar.ofInt n : α) = .real n := by
  refine (ofInt n).eq_real (.of_isFloat (.intCast small)) ?_
  have small' : |(n : ℝ)| ≤ 2 ^ 53 := by exact_mod_cast small
  exact small'.trans_lt (pow_lt_pow_right₀ (by norm_num) (by norm_num))

theorem RealValued.value_zero {α : Type} [Scalar α] [RealValued α] : value (0 : α) = .real 0 := by
  have zero : value (Scalar.ofInt 0 : α) = .real (0 : ℤ) := value_ofInt (by norm_num)
  rwa [Int.cast_zero] at zero

theorem RealValued.value_one {α : Type} [Scalar α] [RealValued α] : value (1 : α) = .real 1 := by
  have one : value (Scalar.ofInt 1 : α) = .real (1 : ℤ) := value_ofInt (by norm_num)
  rwa [Int.cast_one] at one

end SphereMotion
