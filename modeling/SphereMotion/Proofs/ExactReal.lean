import Mathlib
import SphereMotion.Scalar
import SphereMotion.Proofs.Halves
import SphereMotion.Proofs.PointForms
import SphereMotion.Proofs.RealValues
import SphereMotion.Proofs.ScalarLaws

namespace SphereMotion

open Scalar

/-- The scalars of exact arithmetic: the real numbers and an undefined value, which is what an operation
gives outside its domain. -/
inductive Exact where
  | undefined
  | real (r : ℝ)

namespace Exact

def lift (f : ℝ → ℝ) : Exact → Exact
  | real x => real (f x)
  | undefined => undefined

def lift₂ (f : ℝ → ℝ → ℝ) : Exact → Exact → Exact
  | real x, real y => real (f x y)
  | _, _ => undefined

open Classical in
/-- A function on the real numbers of a domain. -/
noncomputable def liftOn (domain : ℝ → Prop) (f : ℝ → ℝ) : Exact → Exact
  | real x => if domain x then real (f x) else undefined
  | undefined => undefined

open Classical in
/-- A function that takes a divisor other than zero. -/
noncomputable def liftDivision (f : ℝ → ℝ → ℝ) : Exact → Exact → Exact
  | real x, real y => if y = 0 then undefined else real (f x y)
  | _, _ => undefined

/-- A relation that the undefined value takes no part in. -/
def Related (r : ℝ → ℝ → Prop) : Exact → Exact → Prop
  | real x, real y => r x y
  | _, _ => False

/-- The whole part of a real number. -/
noncomputable def truncate (x : ℝ) : ℤ := if 0 ≤ x then ⌊x⌋ else ⌈x⌉

end Exact

open Classical in
noncomputable instance : Scalar Exact where
  add := Exact.lift₂ (· + ·)
  sub := Exact.lift₂ (· - ·)
  mul := Exact.lift₂ (· * ·)
  div := Exact.liftDivision (· / ·)
  neg := Exact.lift (-·)
  beq x y := decide (Exact.Related (· = ·) x y)
  lt := Exact.Related (· < ·)
  le := Exact.Related (· ≤ ·)
  decideLT _ _ := propDecidable _
  decideLE _ _ := propDecidable _
  ofInt n := .real n
  undefined := .undefined
  pi := .real Real.pi
  sqrt := Exact.liftOn (0 ≤ ·) Real.sqrt
  exp := Exact.lift Real.exp
  log := Exact.liftOn (0 < ·) Real.log
  sin := Exact.lift Real.sin
  cos := Exact.lift Real.cos
  tan := Exact.liftOn (Real.cos · ≠ 0) Real.tan
  asin := Exact.liftOn (· ∈ Set.Icc (-1) 1) Real.arcsin
  acos := Exact.liftOn (· ∈ Set.Icc (-1) 1) Real.arccos
  atan := Exact.lift Real.arctan
  atan2 := Exact.lift₂ fun y x => (⟨x, y⟩ : ℂ).arg
  rem := Exact.liftDivision fun x y => x - y * Exact.truncate (x / y)
  nearest
    | .real x => .whole (halfAway x)
    | .undefined => .undefined
  same x y := decide (x = y)

namespace Exact

variable (x y : ℝ)

@[simp] theorem real_add : real x + real y = real (x + y) := rfl

@[simp] theorem real_sub : real x - real y = real (x - y) := rfl

@[simp] theorem real_mul : real x * real y = real (x * y) := rfl

@[simp] theorem real_neg : -real x = real (-x) := rfl

@[simp] theorem undefined_eq : (Scalar.undefined : Exact) = undefined := rfl

@[simp] theorem undefined_add (x : Exact) : undefined + x = undefined := by cases x <;> rfl

@[simp] theorem add_undefined (x : Exact) : x + undefined = undefined := by cases x <;> rfl

@[simp] theorem undefined_sub (x : Exact) : undefined - x = undefined := by cases x <;> rfl

@[simp] theorem sub_undefined (x : Exact) : x - undefined = undefined := by cases x <;> rfl

@[simp] theorem undefined_mul (x : Exact) : undefined * x = undefined := by cases x <;> rfl

@[simp] theorem mul_undefined (x : Exact) : x * undefined = undefined := by cases x <;> rfl

@[simp] theorem undefined_div (x : Exact) : undefined / x = undefined := by cases x <;> rfl

@[simp] theorem div_undefined (x : Exact) : x / undefined = undefined := by cases x <;> rfl

@[simp] theorem not_lt_undefined (x : Exact) : ¬x < undefined := by cases x <;> exact id

@[simp] theorem ofInt_eq (n : ℤ) : (Scalar.ofInt n : Exact) = real n := rfl

@[simp] theorem ofNat_eq (n : Nat) : (@OfNat.ofNat Exact n instOfNat) = real n :=
  congrArg real (Int.cast_natCast n)

@[simp] theorem pi_eq : (Scalar.pi : Exact) = real Real.pi := rfl

@[simp] theorem sin_real : Scalar.sin (real x) = real (Real.sin x) := rfl

@[simp] theorem cos_real : Scalar.cos (real x) = real (Real.cos x) := rfl

@[simp] theorem exp_real : Scalar.exp (real x) = real (Real.exp x) := rfl

@[simp] theorem atan_real : Scalar.atan (real x) = real (Real.arctan x) := rfl

@[simp] theorem atan2_real : Scalar.atan2 (real y) (real x) = real (⟨x, y⟩ : ℂ).arg := rfl

variable {x y}

theorem real_div (divisor : y ≠ 0) : real x / real y = real (x / y) := if_neg divisor

theorem sqrt_real (positive : 0 ≤ x) : Scalar.sqrt (real x) = real (Real.sqrt x) := if_pos positive

theorem log_real (positive : 0 < x) : Scalar.log (real x) = real (Real.log x) := if_pos positive

theorem log_of_not_pos (outside : ¬0 < x) : Scalar.log (real x) = undefined := if_neg outside

theorem acos_real (lower : -1 ≤ x) (upper : x ≤ 1) : Scalar.acos (real x) = real (Real.arccos x) :=
  if_pos ⟨lower, upper⟩

theorem asin_real (lower : -1 ≤ x) (upper : x ≤ 1) : Scalar.asin (real x) = real (Real.arcsin x) :=
  if_pos ⟨lower, upper⟩

theorem asin_of_not_mem (outside : x ∉ Set.Icc (-1) 1) : Scalar.asin (real x) = undefined := if_neg outside

theorem tan_real (defined : Real.cos x ≠ 0) : Scalar.tan (real x) = real (Real.tan x) := if_pos defined

theorem tan_of_cos_eq_zero (pole : Real.cos x = 0) : Scalar.tan (real x) = undefined := if_neg (not_not_intro pole)

@[simp] theorem real_lt : real x < real y ↔ x < y := Iff.rfl

theorem zero_eq : (0 : Exact) = real 0 := by rw [ofNat_eq, Nat.cast_zero]

theorem two_eq : (2 : Exact) = real 2 := by rw [ofNat_eq]; rfl

theorem real_lt_zero : real x < 0 ↔ x < 0 := by rw [zero_eq, real_lt]

theorem zero_lt_real : 0 < real x ↔ 0 < x := by rw [zero_eq, real_lt]

@[simp] theorem real_le : real x ≤ real y ↔ x ≤ y := Iff.rfl

open Classical in
@[simp] theorem real_beq : (real x == real y) = true ↔ x = y := decide_eq_true_iff

open Classical in
theorem undefined_beq (x : Exact) : (undefined == x) = false := by
  cases x <;> exact decide_eq_false id

@[simp] theorem isUndefined_undefined : isUndefined undefined = true := by
  rw [isUndefined, undefined_beq]
  rfl

@[simp] theorem isUndefined_real : isUndefined (real x) = false := by
  rw [isUndefined, real_beq.mpr rfl]
  rfl

theorem clamp_real {low high : ℝ} (range : low ≤ high) (x : ℝ) :
    clamp (real x) (real low) (real high) = real (max low (min x high)) := by
  rw [clamp]
  simp only [real_lt]
  by_cases below : x < low
  · rw [if_pos below, min_eq_left (below.le.trans range), max_eq_left below.le]
  · by_cases above : high < x
    · rw [if_neg below, if_pos above, min_eq_right above.le, max_eq_right range]
    · rw [if_neg below, if_neg above, min_eq_left (not_lt.mp above), max_eq_right (not_lt.mp below)]

/-- Natural halves are what they say. -/
theorem half_eq (n : Nat) : half n = real (n / 2) := real_div (by norm_num)

end Exact

open Classical in
instance : LawfulSame Exact := ⟨of_decide_eq_true⟩

instance : LawfulUnit Exact where
  sub_mul_one x y := by
    rcases x with _ | x <;> rcases y with _ | y <;> first | rfl | exact congrArg Exact.real (by norm_num)
  sub_mul_neg_one x y := by
    rcases x with _ | x <;> rcases y with _ | y <;> first | rfl | exact congrArg Exact.real (by norm_num)

instance : LawfulSub Exact where
  add_neg x y := by cases x <;> cases y <;> rfl

instance : LawfulHalves Exact where
  ofInt_eq_half _ := by
    rw [Exact.half_eq, Exact.ofInt_eq]
    congr 1
    push_cast
    ring
  half_add_half _ := by
    rw [Exact.half_eq, Exact.half_eq, Exact.half_eq, Exact.real_add]
    congr 1
    push_cast
    ring
  half_sub_half _ := by
    rw [Exact.half_eq, Exact.half_eq, Exact.half_eq, Exact.real_sub]
    congr 1
    push_cast
    ring
  half_mul_ofInt _ _ _ := by
    rw [Exact.half_eq, Exact.half_eq, Exact.ofInt_eq, Exact.real_mul]
    congr 1
    push_cast
    ring
  half_div_ofInt {m n} positive _ _ := by
    have divisor : (n : ℝ) ≠ 0 := by exact_mod_cast positive.ne'
    rw [Exact.half_eq, Exact.half_eq, Exact.ofInt_eq, Exact.real_div (by exact_mod_cast positive.ne')]
    congr 1
    push_cast
    field_simp
  nearest_half {n} _ := by
    have whole : ((2 * n : Nat) / 2 : ℝ) = (n : ℤ) := by
      push_cast
      ring
    rw [Exact.half_eq, whole]
    exact congrArg Nearest.whole (halfAway_intCast n)

namespace Exact

/-- Exact scalars stand for themselves. -/
def extended : Exact → Extended
  | undefined => .undefined
  | real r => .real r

theorem eq_real_of_extended {x : Exact} {r : ℝ} (value : x.extended = .real r) : x = real r := by
  cases x <;> cases value
  rfl

theorem gives (x : ℝ) : Arithmetic.Gives .exact x (real x).extended := .real (.of_holds trivial)

theorem exists_of_lift₂ {f : ℝ → ℝ → ℝ} {x y : Exact} {r : ℝ} (value : (lift₂ f x y).extended = .real r) :
    ∃ a b, x.extended = .real a ∧ y.extended = .real b := by
  cases x <;> cases y <;> first | exact ⟨_, _, rfl, rfl⟩ | cases value

end Exact

noncomputable instance : RealValued Exact where
  arithmetic := .exact
  value := Exact.extended
  holds_value _ := trivial
  ofInt n := Exact.gives _
  add left right := by
    rw [Exact.eq_real_of_extended left, Exact.eq_real_of_extended right]
    exact Exact.gives _
  sub left right := by
    rw [Exact.eq_real_of_extended left, Exact.eq_real_of_extended right]
    exact Exact.gives _
  mul left right := by
    rw [Exact.eq_real_of_extended left, Exact.eq_real_of_extended right]
    exact Exact.gives _
  div left right divisor := by
    rw [Exact.eq_real_of_extended left, Exact.eq_real_of_extended right, Exact.real_div divisor]
    exact Exact.gives _
  real_of_add value := Exact.exists_of_lift₂ value
  real_of_sub value := Exact.exists_of_lift₂ value
  real_of_mul value := Exact.exists_of_lift₂ value
  real_of_div {x y r b} value right := by
    rw [Exact.eq_real_of_extended right] at value
    cases x with
    | undefined => cases value
    | real a => exact ⟨a, rfl⟩
  nearest_eq x := by cases x <;> rfl
  isUndefined_iff {x} := by cases x <;> simp [Exact.extended]

end SphereMotion
