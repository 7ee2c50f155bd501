import Mathlib
import SphereMotion.Proofs.Remainders

namespace SphereMotion

open Scalar
open Exact (real)

/-- A turn is far shorter than the largest double. -/
theorem add_self_lt_of_lt_four {h : ℝ} (short : h < 4) : h + h < 2 ^ 1023 := by
  have less : h + h < 2 ^ 3 := by linarith
  exact less.trans (pow_lt_pow_right₀ one_lt_two (by norm_num))

open RealValued in
/-- Scalars that leave the exact remainder when they are divided by a turn or less, whatever number
half of a turn stands for. -/
class LawfulTurns (α : Type) [Scalar α] [RealValued α] where
  halfTurn : ℝ
  one_le_halfTurn : 1 ≤ halfTurn
  halfTurn_lt : halfTurn < 4
  value_pi : value (pi : α) = .real halfTurn
  value_neg {x : α} {a : ℝ} : value x = .real a → value (-x) = .real (-a)
  le_iff {x y : α} {a b : ℝ} : value x = .real a → value y = .real b → (x ≤ y ↔ a ≤ b)
  value_rem {x y : α} {a b : ℝ} : value x = .real a → value y = .real b → 0 < b → b ≤ halfTurn + halfTurn →
    value (rem x y) = .real (a - b * Exact.truncate (a / b))

namespace Exact

theorem rem_real {x y : ℝ} (divisor : y ≠ 0) : rem (real x) (real y) = real (x - y * truncate (x / y)) :=
  if_neg divisor

noncomputable instance : LawfulTurns Exact where
  halfTurn := Real.pi
  one_le_halfTurn := one_le_two.trans Real.two_le_pi
  halfTurn_lt := Real.pi_lt_four
  value_pi := rfl
  value_neg number := by
    rw [eq_real_of_extended number]
    rfl
  le_iff left right := by rw [eq_real_of_extended left, eq_real_of_extended right, real_le]
  value_rem left right positive _ := by
    rw [eq_real_of_extended left, eq_real_of_extended right, rem_real positive.ne']
    rfl

end Exact

namespace Double

open Float.Model UnpackedFloat Binary64

/-- What the double `pi` stands for. -/
noncomputable def halfTurn : ℝ := (884279719003555 : ℕ) / (2 ^ 48 : ℕ)

theorem value_of_unpack {x : Double} {s : Sign} {m : Nat} {e : Int} {positive : 0 < m}
    (unpacked : x.value.toModel.unpack = .finite s m e positive) :
    RealValued.value x = .real (signed s (m * 2 ^ e)) := by
  change extended _ = _
  rw [unpacked]
  rfl

theorem value_pi : RealValued.value (pi : Double) = .real halfTurn := by
  have unpacked : (pi : Double).value.toModel.unpack = .finite .positive 7074237752028440 (-51) (by decide) := rfl
  rw [value_of_unpack unpacked, signed, halfTurn]
  norm_num

theorem halfTurn_lt : halfTurn < 4 := by
  rw [halfTurn]
  norm_num

end Double

namespace Binary64

open Float.Model UnpackedFloat

variable {x y : Float.Model} {a b : ℝ}

theorem extended_neg (number : extended x.unpack = .real a) : extended (-x).unpack = .real (-a) := by
  obtain ⟨s, c, number', rfl⟩ := exists_number number
  change extended (Float.Model.pack x.unpack.neg).unpack = _
  rw [unpack_pack_neg, number'.neg.extended_eq, signed_neg]

theorem le_iff_le_of_real (left : extended x.unpack = .real a) (right : extended y.unpack = .real b) :
    UnpackedFloat.le x.unpack y.unpack = true ↔ a ≤ b := by
  obtain ⟨s, c, number, rfl⟩ := exists_number left
  obtain ⟨t, d, number', rfl⟩ := exists_number right
  rw [UnpackedFloat.le, number.compare_eq number', Option.any_some, Ordering.isLE_iff_ne_gt]
  exact (cmp_eq_gt_iff _ _).not.trans not_lt

end Binary64

noncomputable instance : LawfulTurns Double where
  halfTurn := Double.halfTurn
  one_le_halfTurn := by
    rw [Double.halfTurn]
    norm_num
  halfTurn_lt := Double.halfTurn_lt
  value_pi := Double.value_pi
  value_neg {x _} := Binary64.extended_neg (x := x.value.toModel)
  le_iff {x y _ _} left right :=
    (decide_eq_true_iff (p := x.value.toModel ≤ y.value.toModel)).trans (Binary64.le_iff_le_of_real left right)
  value_rem left right positive short :=
    Double.value_rem left right positive (short.trans (add_self_lt_of_lt_four Double.halfTurn_lt).le)

namespace Scalar

open RealValued LawfulTurns

theorem halfTurn_pos (α : Type) [Scalar α] [RealValued α] [LawfulTurns α] : 0 < halfTurn α :=
  one_pos.trans_le one_le_halfTurn

theorem turn_pos (α : Type) [Scalar α] [RealValued α] [LawfulTurns α] : 0 < 2 * halfTurn α :=
  mul_pos two_pos (halfTurn_pos α)

theorem turn_lt (α : Type) [Scalar α] [RealValued α] [LawfulTurns α] : 2 * halfTurn α < 2 ^ 1023 :=
  (two_mul _).trans_lt (add_self_lt_of_lt_four halfTurn_lt)

/-- Doubling does not round. -/
theorem value_turn {α : Type} [Scalar α] [RealValued α] [LawfulTurns α] :
    value (2 * pi : α) = .real (2 * halfTurn α) := by
  have two : value (Scalar.ofInt 2 : α) = .real (2 : ℤ) := value_ofInt (by norm_num)
  have holds := (holds_value (value_pi (α := α))).mul_two_pow 1
  rw [pow_one, mul_comm] at holds
  rw [Int.cast_ofNat] at two
  refine (RealValued.mul two value_pi).eq_real holds ?_
  rw [abs_of_pos (turn_pos α)]
  exact turn_lt α

/-- The angle in the turn around zero that is whole turns away. -/
noncomputable def principal (α : Type) [Scalar α] [RealValued α] [LawfulTurns α] (x : ℝ) : ℝ :=
  toIocMod (add_pos (halfTurn_pos α) (halfTurn_pos α)) (-halfTurn α) x

/-- What an angle that stands for `x` comes to in the turn from `-h` to `h`. -/
structure Wraps {α : Type} [Scalar α] [RealValued α] (a : α) (x h : ℝ) : Prop where
  representative : ∃ y ∈ Set.Ioc (-h) h, value (wrapAngle a) = .real y ∧ (∃ k : ℤ, x - y = k * (2 * h)) ∧
    ∀ z ∈ Set.Ioc (-h) h, (∃ k : ℤ, x - z = k * (2 * h)) → z = y
  again : wrapAngle (wrapAngle a) = wrapAngle a
  own : x ∈ Set.Ioc (-h) h → wrapAngle a = a
  same_iff {b : α} {z : ℝ} :
    value b = .real z → ((wrapAngle a == wrapAngle b) = true ↔ ∃ k : ℤ, x - z = k * (2 * h))

variable {α : Type} [Scalar α] [RealValued α] [LawfulTurns α] {a b : α} {x y : ℝ}

theorem principal_eq_iff :
    principal α x = y ↔ y ∈ Set.Ioc (-halfTurn α) (halfTurn α) ∧ ∃ k : ℤ, x - y = k * (2 * halfTurn α) := by
  rw [principal, toIocMod_eq_iff, neg_add_cancel_left, ← two_mul]
  simp only [zsmul_eq_mul, sub_eq_iff_eq_add']

theorem principal_mem (x : ℝ) : principal α x ∈ Set.Ioc (-halfTurn α) (halfTurn α) := (principal_eq_iff.mp rfl).1

theorem principal_turned (x : ℝ) : ∃ k : ℤ, x - principal α x = k * (2 * halfTurn α) := (principal_eq_iff.mp rfl).2

theorem principal_of_mem (own : x ∈ Set.Ioc (-halfTurn α) (halfTurn α)) : principal α x = x :=
  principal_eq_iff.mpr ⟨own, 0, by simp⟩

theorem principal_inj : principal α x = principal α y ↔ ∃ k : ℤ, x - y = k * (2 * halfTurn α) := by
  rw [eq_comm, principal, principal, toIocMod_eq_toIocMod, ← two_mul]
  simp only [zsmul_eq_mul]

/-- The remainder by a whole turn is less than one, and whole turns away. -/
theorem exists_rem_turn (finite : value a = .real x) :
    ∃ rest : ℝ, value (rem a (2 * pi)) = .real rest ∧ |rest| < 2 * halfTurn α ∧
      ∃ n : ℤ, x - rest = n * (2 * halfTurn α) := by
  have turn := turn_pos α
  refine ⟨_, value_rem finite value_turn turn (two_mul _).le, ?_, Exact.truncate (x / (2 * halfTurn α)), by ring⟩
  have part : x - 2 * halfTurn α * Exact.truncate (x / (2 * halfTurn α)) =
      2 * halfTurn α * (x / (2 * halfTurn α) - Exact.truncate (x / (2 * halfTurn α))) := by
    rw [mul_sub, mul_div_cancel₀ _ turn.ne']
  rw [part, abs_mul, abs_of_pos turn]
  exact mul_lt_of_lt_one_right turn (Exact.abs_sub_truncate_lt _)

theorem le_neg_pi_iff (finite : value a = .real x) : a ≤ -pi ↔ x ≤ -halfTurn α := le_iff finite (value_neg value_pi)

variable [LawfulOrder α]

theorem pi_lt_iff (finite : value a = .real x) : pi < a ↔ halfTurn α < x := by
  rw [LawfulOrder.lt_iff, value_pi, finite]
  exact Iff.rfl

/-- Each side has its own correction, and neither is rounded. -/
theorem value_wrapAngle (finite : value a = .real x) : value (wrapAngle a) = .real (principal α x) := by
  obtain ⟨rest, remainder, bound, turned⟩ := exists_rem_turn finite
  obtain ⟨lower, upper⟩ := abs_lt.mp bound
  have small {y : ℝ} (above : -halfTurn α < y) (notAbove : y ≤ halfTurn α) : |y| < 2 ^ 1023 := by
    have half : |y| ≤ halfTurn α := abs_le.mpr ⟨above.le, notAbove⟩
    exact half.trans_lt ((lt_mul_left (halfTurn_pos α) one_lt_two).trans (turn_lt α))
  rw [principal_inj.mpr turned, wrapAngle]
  simp only [pi_lt_iff remainder, le_neg_pi_iff remainder]
  split_ifs with high low
  · have above : -halfTurn α < rest - 2 * halfTurn α := by linarith
    have notAbove : rest - 2 * halfTurn α ≤ halfTurn α := by linarith
    rw [principal_eq_iff.mpr ⟨⟨above, notAbove⟩, 1, by push_cast; ring⟩]
    exact (RealValued.sub remainder value_turn).eq_real
      ((holds_value remainder).sub (holds_value value_turn) (by linarith) (by linarith)) (small above notAbove)
  · have above : -halfTurn α < rest + 2 * halfTurn α := by linarith
    have notAbove : rest + 2 * halfTurn α ≤ halfTurn α := by linarith
    have holds := (holds_value value_turn).sub (holds_value remainder).neg (by linarith) (by linarith)
    rw [sub_neg_eq_add, add_comm] at holds
    rw [principal_eq_iff.mpr ⟨⟨above, notAbove⟩, -1, by push_cast; ring⟩]
    exact (RealValued.add remainder value_turn).eq_real holds (small above notAbove)
  · rw [principal_of_mem ⟨not_le.mp low, not_lt.mp high⟩, remainder]

/-- An angle in the turn around zero that is its own remainder is left as it is. -/
theorem wrapAngle_of_mem (finite : value a = .real x) (own : x ∈ Set.Ioc (-halfTurn α) (halfTurn α))
    (short : rem a (2 * pi) = a) : wrapAngle a = a := by
  rw [wrapAngle, short, if_neg ((pi_lt_iff finite).not.mpr (not_lt.mpr own.2)),
    if_neg ((le_neg_pi_iff finite).not.mpr (not_le.mpr own.1))]

theorem wrapAngle_beq_iff (finite : value a = .real x) (finite' : value b = .real y) :
    (wrapAngle a == wrapAngle b) = true ↔ ∃ k : ℤ, x - y = k * (2 * halfTurn α) := by
  rw [LawfulOrder.beq_iff (value_wrapAngle finite) (value_wrapAngle finite'), principal_inj]

/-- An angle wraps if it and what it comes to are left as they are whenever they lie in the turn. -/
theorem Wraps.of_own (finite : value a = .real x) (own : x ∈ Set.Ioc (-halfTurn α) (halfTurn α) → wrapAngle a = a)
    (own' : principal α x ∈ Set.Ioc (-halfTurn α) (halfTurn α) → wrapAngle (wrapAngle a) = wrapAngle a) :
    Wraps a x (halfTurn α) where
  representative := ⟨_, principal_mem x, value_wrapAngle finite, principal_turned x,
    fun _ mem turned => (principal_eq_iff.mpr ⟨mem, turned⟩).symm⟩
  again := own' (principal_mem x)
  own := own
  same_iff := wrapAngle_beq_iff finite

end Scalar

namespace Exact

theorem wrapAngle_eq (x : ℝ) : wrapAngle (real x) = real (principal Exact x) :=
  have value : RealValued.value (real x) = .real x := rfl
  eq_real_of_extended (value_wrapAngle value)

theorem wraps (x : ℝ) : Wraps (real x) x Real.pi := by
  refine Wraps.of_own (α := Exact) rfl (fun own => ?_) (fun own => ?_)
  · rw [wrapAngle_eq, principal_of_mem own]
  · rw [wrapAngle_eq, wrapAngle_eq, principal_of_mem own]

end Exact

namespace Double

variable {x : Double} {a : ℝ}

theorem payload_wrapAngle (payload : x.payload = 0) : (wrapAngle x).payload = 0 := by
  rw [wrapAngle]
  split_ifs
  · rfl
  · rfl
  · exact payload_rem payload _

theorem wrapAngle_of_mem (finite : RealValued.value x = .real a) (payload : x.payload = 0)
    (own : a ∈ Set.Ioc (-halfTurn) halfTurn) : wrapAngle x = x := by
  have half : |a| ≤ halfTurn := abs_le.mpr ⟨own.1.le, own.2⟩
  have short := half.trans_lt (lt_mul_left (halfTurn_pos Double) one_lt_two)
  exact Scalar.wrapAngle_of_mem finite own (rem_of_abs_lt finite value_turn short (turn_lt Double).le payload)

theorem wraps {f : Float} (finite : RealValued.value (ofFloat f) = .real a) : Wraps (ofFloat f) a halfTurn :=
  Wraps.of_own finite (wrapAngle_of_mem finite rfl)
    (wrapAngle_of_mem (value_wrapAngle finite) (payload_wrapAngle rfl))

end Double

end SphereMotion
