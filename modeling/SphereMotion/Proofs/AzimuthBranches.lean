import Mathlib
import SphereMotion.Motion.Geodesic
import SphereMotion.Proofs.WrappedAngles

namespace SphereMotion

open Scalar
open Exact (real)

namespace Scalar

open RealValued LawfulTurns

variable {α : Type} [Scalar α] [RealValued α]

/-- Azimuths, given by what they stand for, that an arc tangent may give to one direction. -/
structure Branches (φ φ' : α) (a a' h : ℝ) : Prop where
  value_left : value φ = .real a
  value_right : value φ' = .real a'
  left_le : |a| ≤ h
  right_le : |a'| ≤ h
  turned : ∃ k : ℤ, a - a' = k * (2 * h)

variable [LawfulTurns α] {φ φ' ψ ψ' : α} {a a' b b' r r' : ℝ}

/-- Between azimuths there is a difference, and it is off by half a unit in the last place at most. -/
theorem exists_sub (left : value φ = .real a) (right : value ψ = .real b) (left_le : |a| ≤ halfTurn α)
    (right_le : |b| ≤ halfTurn α) :
    ∃ r, value (φ - ψ) = .real r ∧ (arithmetic α).Rounds (a - b) r ∧ |r - (a - b)| ≤ 2 ^ (-51 : ℤ) := by
  have apart : |a - b| ≤ 2 * halfTurn α := (abs_sub a b).trans (by linarith)
  obtain ⟨r, value, rounds⟩ := (RealValued.sub left right).exists_rounds (apart.trans_lt (turn_lt α))
  have short : |a - b| ≤ 2 ^ (3 : ℤ) := apart.trans (by linarith [halfTurn_lt (α := α)])
  exact ⟨r, value, rounds, rounds.abs_sub_le short (by norm_num)⟩

section Differences

variable (shifted : Branches φ φ' a a' (halfTurn α)) (start : Branches ψ ψ' b b' (halfTurn α))
include shifted start

/-- Differences of azimuths of the same directions are whole turns apart, but for what they are off by. -/
theorem Branches.exists_turns (r r' : ℝ) :
    ∃ m : ℤ, r - r' - (r - (a - b) - (r' - (a' - b'))) = m * (2 * halfTurn α) := by
  obtain ⟨k, turned⟩ := shifted.turned
  obtain ⟨l, turned'⟩ := start.turned
  refine ⟨k - l, ?_⟩
  push_cast
  linear_combination turned - turned'

/-- What two differences of azimuths of the same directions are off by is less than a turn apart. -/
theorem Branches.abs_error_sub_le (left : value (φ - ψ) = .real r) (right : value (φ' - ψ') = .real r') :
    |r - (a - b) - (r' - (a' - b'))| ≤ 2 ^ (-50 : ℤ) := by
  obtain ⟨s, value, -, near⟩ := exists_sub shifted.value_left start.value_left shifted.left_le start.left_le
  obtain ⟨s', value', -, near'⟩ := exists_sub shifted.value_right start.value_right shifted.right_le start.right_le
  cases left.symm.trans value
  cases right.symm.trans value'
  calc |r - (a - b) - (r' - (a' - b'))| ≤ |r - (a - b)| + |r' - (a' - b')| := abs_sub _ _
    _ ≤ 2 ^ (-51 : ℤ) + 2 ^ (-51 : ℤ) := add_le_add near near'
    _ = 2 ^ (-50 : ℤ) := by norm_num

variable [LawfulOrder α]

/-- Up to whole turns, the turns between azimuths of the same directions differ by what the
differences are off by. -/
theorem Branches.exists_wrapped (left : value (φ - ψ) = .real r) (right : value (φ' - ψ') = .real r') :
    ∃ y y', value (wrapAngle (φ - ψ)) = .real y ∧ value (wrapAngle (φ' - ψ')) = .real y' ∧
      ∃ n : ℤ, y - y' - n * (2 * halfTurn α) = r - (a - b) - (r' - (a' - b')) := by
  obtain ⟨m, turns⟩ := shifted.exists_turns start r r'
  obtain ⟨n, wrapped⟩ := principal_turned (α := α) r
  obtain ⟨n', wrapped'⟩ := principal_turned (α := α) r'
  refine ⟨_, _, value_wrapAngle left, value_wrapAngle right, m - n + n', ?_⟩
  push_cast
  linear_combination turns - wrapped + wrapped'

/-- Azimuths of the same directions have the same turn between them if the differences are off by the same. -/
theorem Branches.wrapAngle_beq_iff (left : value (φ - ψ) = .real r) (right : value (φ' - ψ') = .real r') :
    (wrapAngle (φ - ψ) == wrapAngle (φ' - ψ')) = true ↔ r - (a - b) = r' - (a' - b') := by
  obtain ⟨m, turns⟩ := shifted.exists_turns start r r'
  rw [Scalar.wrapAngle_beq_iff left right]
  constructor
  · rintro ⟨k, apart⟩
    -- The errors are a whole number of turns apart, which is too much for any but none.
    have errors : r - (a - b) - (r' - (a' - b')) = (k - m : ℤ) * (2 * halfTurn α) := by
      push_cast
      linear_combination apart - turns
    have short := shifted.abs_error_sub_le start left right
    rw [errors, abs_mul, abs_of_pos (turn_pos α)] at short
    have few : |((k - m : ℤ) : ℝ)| < 1 := by
      by_contra many
      have long := le_mul_of_one_le_left (turn_pos α).le (not_lt.mp many)
      have turn := one_le_halfTurn (α := α)
      have tiny : (2 : ℝ) ^ (-50 : ℤ) < 1 := by norm_num
      linarith
    have none : k - m = 0 := Int.abs_lt_one_iff.mp (by exact_mod_cast few)
    rwa [none, Int.cast_zero, zero_mul, sub_eq_zero] at errors
  · intro same
    exact ⟨m, by linear_combination turns + same⟩

end Differences

end Scalar

theorem Exact.wrapAngle_turns (φ ψ : Exact) (k l : ℤ) :
    wrapAngle (φ + real (k * (2 * Real.pi)) - (ψ + real (l * (2 * Real.pi)))) = wrapAngle (φ - ψ) := by
  cases φ with
  | undefined => simp
  | real a =>
    cases ψ with
    | undefined => simp
    | real b =>
      rw [real_add, real_add, real_sub, real_sub, wrapAngle_eq, wrapAngle_eq]
      refine congrArg real (principal_inj.mpr ⟨k - l, ?_⟩)
      change _ = _ * (2 * Real.pi)
      push_cast
      ring

namespace Geodesic

variable {α : Type} [Scalar α]

/-- The azimuth of a planar point about the epipole. -/
def azimuth (m : Geodesic α) (point : Vec2 α) : α := (m.frame.spherical (m.projection.unproject point)).azimuth

theorem vectorFor_y (m : Geodesic α) (position shifted center : Vec2 α) : (m.vectorFor position shifted center).y =
    wrapAngle (m.azimuth shifted - m.azimuth position) / m.projection.angleResolution := rfl

end Geodesic

theorem Double.branches_pi : Branches (pi : Double) (-pi) halfTurn (-halfTurn) halfTurn where
  value_left := value_pi
  value_right := LawfulTurns.value_neg value_pi
  left_le := (abs_of_pos (halfTurn_pos Double)).le
  right_le := (abs_neg _).trans_le (abs_of_pos (halfTurn_pos Double)).le
  turned := ⟨1, by push_cast; ring⟩

/-- An azimuth that is the same in both branches. -/
theorem Scalar.Branches.of_value {φ : Double} {a : ℝ} (finite : RealValued.value φ = .real a)
    (within : |a| ≤ Double.halfTurn) : Branches φ φ a a Double.halfTurn :=
  ⟨finite, finite, within, within, 0, by simp⟩

theorem Double.isFloat_one_sub_halfTurn : IsFloat (1 - halfTurn) := by
  have units : 1 - halfTurn = (2 ^ 48 - 884279719003555 : ℤ) / 2 ^ 48 := by
    rw [halfTurn]
    norm_num
  rw [units]
  exact .div_two_pow (by norm_num) (by norm_num)

theorem Double.isFloat_one_add_halfTurn : IsFloat (1 - -halfTurn) := by
  have units : 1 - -halfTurn = (2 ^ 48 + 884279719003555 : ℤ) / 2 ^ 48 := by
    rw [halfTurn]
    norm_num
  rw [units]
  exact .div_two_pow (by norm_num) (by norm_num)

open RealValued in
/-- Every angle comes to the one angle of the turn around zero that is whole turns away. In exact arithmetic
the turn from one point to another is therefore the same for all azimuths of their directions. Differences of
doubles are rounded before: there the turns are the same exactly if both differences are off by the same. -/
theorem Scalar.wrapAngle_representative :
    (∀ x : ℝ, Wraps (real x) x Real.pi) ∧
    (∀ (f : Float) (x : ℝ), value (Double.ofFloat f) = .real x → Wraps (Double.ofFloat f) x Double.halfTurn) ∧
    (value (pi : Double) = .real Double.halfTurn ∧ value (2 * pi : Double) = .real (2 * Double.halfTurn)) ∧
    (∀ (m : Geodesic Exact) (position shifted center : Vec2 Exact) (k l : ℤ),
      (m.vectorFor position shifted center).y =
        wrapAngle (m.azimuth shifted + real (k * (2 * Real.pi)) - (m.azimuth position + real (l * (2 * Real.pi)))) /
          m.projection.angleResolution) ∧
    (∀ (m : Geodesic Double) (position shifted center : Vec2 Double), (m.vectorFor position shifted center).y =
      wrapAngle (m.azimuth shifted - m.azimuth position) / m.projection.angleResolution) ∧
    ∀ {φ φ' ψ ψ' : Double} {a a' b b' : ℝ}, Branches φ φ' a a' Double.halfTurn →
      Branches ψ ψ' b b' Double.halfTurn →
      ∃ r r', value (φ - ψ) = .real r ∧ value (φ' - ψ') = .real r' ∧
        Arithmetic.binary64.Rounds (a - b) r ∧ Arithmetic.binary64.Rounds (a' - b') r' ∧
        (∃ y y', value (wrapAngle (φ - ψ)) = .real y ∧ value (wrapAngle (φ' - ψ')) = .real y' ∧
          ∃ n : ℤ, y - y' - n * (2 * Double.halfTurn) = r - (a - b) - (r' - (a' - b'))) ∧
        |r - (a - b) - (r' - (a' - b'))| ≤ 2 ^ (-50 : ℤ) ∧
        ((wrapAngle (φ - ψ) == wrapAngle (φ' - ψ')) = true ↔ r - (a - b) = r' - (a' - b')) := by
  refine ⟨Exact.wraps, fun f x => Double.wraps, ⟨Double.value_pi, value_turn⟩,
    fun m position shifted center k l => ?_, Geodesic.vectorFor_y, fun shifted start => ?_⟩
  · rw [Exact.wrapAngle_turns, Geodesic.vectorFor_y]
  · obtain ⟨r, left, rounds, -⟩ := exists_sub shifted.value_left start.value_left shifted.left_le start.left_le
    obtain ⟨r', right, rounds', -⟩ :=
      exists_sub shifted.value_right start.value_right shifted.right_le start.right_le
    exact ⟨r, r', left, right, rounds, rounds', shifted.exists_wrapped start left right,
      shifted.abs_error_sub_le start left right, shifted.wrapAngle_beq_iff start left right⟩

theorem Scalar.wrapAngle_representative_of_odd_turns :
    (wrapAngle (real (3 * Real.pi)) == wrapAngle (real (-Real.pi))) = true ∧
    (wrapAngle (Double.ofFloat (-3.141592653589793)) == wrapAngle (Double.ofFloat 3.141592653589793)) = true ∧
    wrapAngle (1 : Double) = 1 ∧ (wrapAngle ((1 : Double) - pi) == wrapAngle ((1 : Double) - -pi)) = true := by
  obtain ⟨exact, double, ⟨half, -⟩, -, -, branches⟩ := wrapAngle_representative
  have half' := LawfulTurns.value_neg half
  have one : RealValued.value (1 : Double) = .real 1 := RealValued.value_one
  have long : 1 ≤ Double.halfTurn := LawfulTurns.one_le_halfTurn (α := Double)
  obtain ⟨r, r', -, -, rounds, rounds', -, -, same⟩ :=
    branches (Branches.of_value one (by simpa using long)) Double.branches_pi
  refine ⟨((exact (3 * Real.pi)).same_iff rfl).mpr ⟨2, by push_cast; ring⟩, ?_, ?_, same.mpr ?_⟩
  · exact ((double _ _ half').same_iff half).mpr ⟨-1, by push_cast; ring⟩
  · exact (double (Float.ofInt 1) 1 one).own ⟨by linarith [halfTurn_pos Double], long⟩
  · -- Neither of the differences is rounded.
    rw [rounds.eq_of_holds Double.isFloat_one_sub_halfTurn, rounds'.eq_of_holds Double.isFloat_one_add_halfTurn]
    ring

namespace Double

open Float.Model UnpackedFloat Binary64

/-- An azimuth well away from the seam. -/
def aside : Double := ofFloat 0.86

/-- The azimuth next to `-π`. -/
def beside : Double := ofFloat (-3.1415926535897927)

theorem principal_eq {x y : ℝ} (own : y ∈ Set.Ioc (-halfTurn) halfTurn)
    (turned : ∃ k : ℤ, x - y = k * (2 * halfTurn)) :
    principal Double x = y := principal_eq_iff.mpr ⟨own, turned⟩

theorem value_aside : RealValued.value aside = .real (7746191359077253 / 2 ^ 53) := by
  have unpacked : aside.value.toModel.unpack = .finite .positive 7746191359077253 (-53) (by decide) := rfl
  rw [value_of_unpack unpacked, signed]
  norm_num

theorem value_beside : RealValued.value beside = .real (-halfTurn + 1 / 2 ^ 51) := by
  have unpacked : beside.value.toModel.unpack = .finite .negative 7074237752028439 (-51) (by decide) := rfl
  rw [value_of_unpack unpacked, signed, halfTurn]
  norm_num

theorem value_pi_sub_aside : RealValued.value (pi - aside) = .real (5137689912259127 / 2 ^ 51) := by
  have unpacked : (pi - aside).value.toModel.unpack = .finite .positive 5137689912259127 (-51) (by decide) := rfl
  rw [value_of_unpack unpacked, signed]
  norm_num

theorem value_neg_pi_sub_aside : RealValued.value (-pi - aside) = .real (-4505392795898877 / 2 ^ 50) := by
  have unpacked : (-pi - aside).value.toModel.unpack = .finite .negative 4505392795898877 (-50) (by decide) := rfl
  rw [value_of_unpack unpacked, signed]
  norm_num

theorem value_beside_sub_pi : RealValued.value (beside - pi) = .real (-(2 * halfTurn)) := by
  have unpacked : (beside - pi).value.toModel.unpack = .finite .negative 7074237752028440 (-50) (by decide) := rfl
  rw [value_of_unpack unpacked, signed, halfTurn]
  norm_num

theorem value_beside_sub_neg_pi : RealValued.value (beside - -pi) = .real (1 / 2 ^ 51) := by
  have unpacked : (beside - -pi).value.toModel.unpack = .finite .positive 4503599627370496 (-103) (by decide) := rfl
  rw [value_of_unpack unpacked, signed]
  norm_num

end Double

open RealValued in
/-- An azimuth of half a turn has two branches, and the difference to another azimuth is not rounded
alike in both. A turn to an azimuth at a distance then differs in the last place, and a smallest turn is
lost in one of the branches. -/
theorem Scalar.wrapAngle_differs_between_branches :
    Branches (pi : Double) (-pi) Double.halfTurn (-Double.halfTurn) Double.halfTurn ∧
      (Branches Double.aside Double.aside (7746191359077253 / 2 ^ 53) (7746191359077253 / 2 ^ 53) Double.halfTurn ∧
        ¬(wrapAngle (pi - Double.aside) == wrapAngle (-pi - Double.aside)) = true) ∧
      Branches Double.beside Double.beside (-Double.halfTurn + 1 / 2 ^ 51) (-Double.halfTurn + 1 / 2 ^ 51)
          Double.halfTurn ∧
        value (wrapAngle (Double.beside - pi)) = .real 0 ∧
        value (wrapAngle (Double.beside - -pi)) = .real (1 / 2 ^ 51) ∧
        ¬(wrapAngle (Double.beside - pi) == wrapAngle (Double.beside - -pi)) = true := by
  have half := Double.branches_pi
  have aside := Branches.of_value Double.value_aside (by rw [Double.halfTurn, abs_of_pos] <;> norm_num)
  have beside := Branches.of_value Double.value_beside (by rw [Double.halfTurn, abs_of_neg] <;> norm_num)
  have lost : principal Double (-(2 * Double.halfTurn)) = 0 := by
    refine Double.principal_eq ⟨?_, ?_⟩ ⟨-1, by push_cast; ring⟩ <;> rw [Double.halfTurn] <;> norm_num
  have kept : principal Double (1 / 2 ^ 51) = 1 / 2 ^ 51 := by
    refine Double.principal_eq ⟨?_, ?_⟩ ⟨0, by simp⟩ <;> rw [Double.halfTurn] <;> norm_num
  refine ⟨half, ⟨aside, ?_⟩, beside, ?_, ?_, ?_⟩
  · rw [half.wrapAngle_beq_iff aside Double.value_pi_sub_aside Double.value_neg_pi_sub_aside, Double.halfTurn]
    norm_num
  · rw [value_wrapAngle Double.value_beside_sub_pi, lost]
  · rw [value_wrapAngle Double.value_beside_sub_neg_pi, kept]
  · rw [beside.wrapAngle_beq_iff half Double.value_beside_sub_pi Double.value_beside_sub_neg_pi]
    intro same
    linarith

end SphereMotion
