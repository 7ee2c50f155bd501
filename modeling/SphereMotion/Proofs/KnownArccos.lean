import Mathlib
import SphereMotion.Proofs.GuardedLens

namespace SphereMotion

open Scalar

namespace Binary64

/-- There is a unit for every positive number that leaves 53 digits of it, unless it is the least one. -/
theorem exists_unit {x : ℝ} (positive : 0 < x) :
    ∃ t : ℤ, -1074 ≤ t ∧ x / 2 ^ t < 2 ^ 53 ∧ (t = -1074 ∨ 2 ^ 52 ≤ x / 2 ^ t) := by
  obtain ⟨t, least, coarse, fine⟩ : ∃ t : ℤ, -1074 ≤ t ∧ (t = -1074 ∨ t = Int.log 2 x - 52) ∧
      Int.log 2 x - 52 ≤ t :=
    ⟨max (Int.log 2 x - 52) (-1074), by omega, by omega, by omega⟩
  have unit : (0 : ℝ) < 2 ^ t := zpow_pos two_pos t
  refine ⟨t, least, ?_, coarse.imp_right fun atLog => ?_⟩
  · rw [div_lt_iff₀ unit, ← zpow_natCast, ← zpow_add₀ two_ne_zero]
    refine (Int.lt_zpow_succ_log_self one_lt_two x).trans_le (zpow_le_zpow_right₀ one_le_two ?_)
    push_cast
    omega
  · rw [le_div_iff₀ unit, ← zpow_natCast, ← zpow_add₀ two_ne_zero, atLog]
    exact (zpow_le_zpow_right₀ one_le_two (by push_cast; omega)).trans (Int.zpow_log_le_self one_lt_two positive)

theorem exists_nat_near {y : ℝ} (nonneg : 0 ≤ y) : ∃ n : ℕ, |n - y| ≤ 1 / 2 := by
  have lower := Nat.floor_le (show 0 ≤ y + 1 / 2 by positivity)
  have upper := Nat.lt_floor_add_one (y + 1 / 2)
  exact ⟨⌊y + 1 / 2⌋₊, abs_le.mpr ⟨by linarith, by linarith⟩⟩

/-- Every number that is not negative is rounded to some float. -/
theorem exists_roundsTo {x : ℝ} (nonneg : 0 ≤ x) : ∃ f : Float, RoundsTo .positive x f.toModel.unpack := by
  rcases nonneg.eq_or_lt with rfl | positive
  · exact ⟨Float.ofNat 0, by simpa using roundsTo_ofNat 0⟩
  · obtain ⟨t, least, digits, normal⟩ := exists_unit positive
    obtain ⟨n, near⟩ := exists_nat_near (div_pos positive (zpow_pos two_pos t)).le
    have rounded := RoundsTo.store_of_near .positive near digits least normal
    rw [div_mul_cancel₀ x (zpow_pos two_pos t).ne'] at rounded
    exact ⟨Float.ofModel (Float.Model.pack (store .positive n t)), rounded.unpack_pack⟩

end Binary64

namespace Double

/-- The arc cosine of a double, rounded. -/
noncomputable def arccos (x : Double) : Double :=
  match RealValued.value x with
  | .real a => if |a| ≤ 1 then ofFloat (Binary64.exists_roundsTo (Real.arccos_nonneg a)).choose else undefined
  | _ => undefined

theorem gives_arccos {x : Double} {a : ℝ} (number : RealValued.value x = .real a) (inside : |a| ≤ 1) :
    Arithmetic.binary64.Gives (Real.arccos a) (RealValued.value (arccos x)) := by
  rw [arccos, number]
  dsimp only
  rw [if_pos inside]
  exact (Binary64.exists_roundsTo (Real.arccos_nonneg a)).choose_spec.gives

theorem not_undefined_lt_zero : ¬undefined < 0 := by decide

theorem not_arccos_lt_zero (x : Double) : ¬arccos x < 0 := by
  cases number : RealValued.value x with
  | undefined | below | above =>
    rw [arccos, number]
    exact not_undefined_lt_zero
  | real a =>
    by_cases inside : |a| ≤ 1
    · have gives := gives_arccos number inside
      rw [LawfulOrder.lt_iff, RealValued.value_zero]
      generalize RealValued.value (arccos x) = v at gives
      cases gives with
      | real rounds =>
        have zero : Arithmetic.binary64.Holds (0 : ℤ) := .of_isFloat (.intCast (by norm_num))
        exact not_lt.mpr (rounds.le_of_le (by exact_mod_cast zero) (Real.arccos_nonneg a))
      | above _ _ => exact id
      | below _ large =>
        have negative : Real.arccos a < 0 := large.trans_lt (neg_lt_zero.mpr (by positivity))
        exact absurd (Real.arccos_nonneg a) (not_le.mpr negative)
    · rw [arccos, number]
      dsimp only
      rw [if_neg inside]
      exact not_undefined_lt_zero

end Double

/-- Scalars with an arc cosine of their own. -/
def WithArccos (α : Type) (_ : α → α) : Type := α

namespace WithArccos

variable {α : Type} {arccos : α → α}

instance [scalar : Scalar α] : Scalar (WithArccos α arccos) := { scalar with acos := arccos }

variable [Scalar α]

instance [same : LawfulSame α] : LawfulSame (WithArccos α arccos) := { same with }

instance [halves : LawfulHalves α] : LawfulHalves (WithArccos α arccos) := { halves with }

instance [lens : LawfulLens α] : LawfulLens (WithArccos α arccos) := { lens with }

noncomputable instance [valued : RealValued α] : RealValued (WithArccos α arccos) := { valued with }

instance [RealValued α] [order : LawfulOrder α] : LawfulOrder (WithArccos α arccos) := { order with }

instance [RealValued α] [infinities : LawfulInfinities α] : LawfulInfinities (WithArccos α arccos) :=
  { infinities with }

instance : LawfulArccos (WithArccos Double Double.arccos) := ⟨Double.not_arccos_lt_zero⟩

end WithArccos

end SphereMotion
