import Mathlib
import SphereMotion.Config

namespace SphereMotion

open Scalar

def Scalar.half {α : Type} [Scalar α] (n : Nat) : α := ofInt n / ofInt 2

/-- Scalars that are exact on the halves of natural numbers, as far as these stay below `2 ^ 52`. -/
class LawfulHalves (α : Type) [Scalar α] : Prop where
  ofInt_eq_half {n : Nat} : n < 2 ^ 52 → (ofInt n : α) = half (2 * n)
  half_add_half {m n : Nat} : m + n < 2 ^ 53 → (half m + half n : α) = half (m + n)
  half_sub_half {m n : Nat} : m + n < 2 ^ 53 → (half (m + n) - half n : α) = half m
  half_mul_ofInt {m n : Nat} : m < 2 ^ 53 → n < 2 ^ 53 → m * n < 2 ^ 53 → (half m * ofInt n : α) = half (m * n)
  half_div_ofInt {m n : Nat} : 0 < n → n < 2 ^ 53 → m * n < 2 ^ 53 → (half (m * n) / ofInt n : α) = half m
  nearest_half {n : Nat} : n < 2 ^ 52 → nearest (half (2 * n) : α) = .whole n

namespace LawfulHalves

variable {α : Type} [Scalar α] [LawfulHalves α]

theorem ofInt_mul_ofInt {m n : Nat} (left : m < 2 ^ 52) (right : n < 2 ^ 52) (product : m * n < 2 ^ 52) :
    (ofInt m * ofInt n : α) = ofInt (m * n : Nat) := by
  rw [ofInt_eq_half left, half_mul_ofInt (by omega) (by omega) (by rw [Nat.mul_assoc]; omega),
    ofInt_eq_half product, Nat.mul_assoc]

variable {first n halves : Nat}

/-- A point of a lattice of steps of four, `n` steps beyond the corner `first` and a number of halves off it. -/
theorem half_add_steps (aligned : first % 4 = 0) (small : 2 * (first + 4 * n) + halves < 2 ^ 53) :
    (half halves + ofInt (first / 4 + n : Nat) * 4 : α) = half (2 * (first + 4 * n) + halves) := by
  have four : (4 : α) = ofInt (4 : Nat) := rfl
  rw [four, ofInt_mul_ofInt (by omega) (by omega) (by omega), ofInt_eq_half (by omega), half_add_half (by omega)]
  congr 1
  omega

/-- The same point of a lattice that begins at the corner and is stretched. -/
theorem stretched_add_steps {shift : Nat} (aligned : first % 4 = 0) (bounded : shift ≤ 1)
    (small : (2 * (first + 4 * n) + halves) * 2 ^ shift < 2 ^ 53) :
    ((ofInt (first / 4 : Nat) * 4 + half halves) * ofInt (2 ^ shift : Nat) +
        ofInt n * (4 * ofInt (2 ^ shift : Nat)) : α) =
      half ((2 * (first + 4 * n) + halves) * 2 ^ shift) := by
  have four : (4 : α) = ofInt (4 : Nat) := rfl
  have positive := Nat.two_pow_pos shift
  have factor : 2 ^ shift ≤ 2 ^ 1 := Nat.pow_le_pow_right (by decide) bounded
  have parts : (2 * (first + 4 * n) + halves) * 2 ^ shift =
      (2 * first + halves) * 2 ^ shift + 2 * (n * (4 * 2 ^ shift)) := by ring
  have start : 2 * first + halves ≤ (2 * first + halves) * 2 ^ shift := Nat.le_mul_of_pos_right _ positive
  have steps : n ≤ n * (4 * 2 ^ shift) := Nat.le_mul_of_pos_right _ (by omega)
  have corner : (ofInt (first / 4 : Nat) * 4 + half halves : α) = half (2 * first + halves) := by
    rw [four, ofInt_mul_ofInt (by omega) (by omega) (by omega), ofInt_eq_half (by omega), half_add_half (by omega)]
    congr 1
    omega
  have stretched : (ofInt n * (4 * ofInt (2 ^ shift : Nat)) : α) = half (2 * (n * (4 * 2 ^ shift))) := by
    rw [four, ofInt_mul_ofInt (by omega) (by omega) (by omega), ofInt_mul_ofInt (by omega) (by omega) (by omega),
      ofInt_eq_half (by omega)]
  rw [corner, stretched, half_mul_ofInt (by omega) (by omega) (by omega), half_add_half (by omega), parts]

/-- A sample in the stretched picture, as its distance from the corner of the picture. -/
theorem add_half_mul {shift : Nat} (bounded : shift ≤ 1) (small : (2 * n + halves) * 2 ^ shift < 2 ^ 53) :
    ((ofInt n + half halves) * ofInt (2 ^ shift : Nat) : α) = half ((2 * n + halves) * 2 ^ shift) := by
  have factor : 2 ^ shift ≤ 2 ^ 1 := Nat.pow_le_pow_right (by decide) bounded
  have atLeast := Nat.le_mul_of_pos_right (2 * n + halves) (Nat.two_pow_pos shift)
  rw [ofInt_eq_half (by omega), half_add_half (by omega), half_mul_ofInt (by omega) (by omega) small]

end LawfulHalves

/-- Every offset of the motion sample is a number of halves. -/
theorem Config.exists_half {α : Type} [Scalar α] [LawfulHalves α] {offsetIndex : Nat} {offset : α}
    (accepted : Config.offset offsetIndex = .ok offset) : ∃ halves ≤ 6, offset = half halves := by
  unfold Config.offset at accepted
  split at accepted
  next whole =>
    cases accepted
    exact ⟨2 * offsetIndex, by omega, LawfulHalves.ofInt_eq_half (by omega)⟩
  next =>
    split at accepted
    · cases accepted
      exact ⟨3, by omega, rfl⟩
    · cases accepted

end SphereMotion
