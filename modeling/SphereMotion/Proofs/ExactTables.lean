import Mathlib
import SphereMotion.Proofs.ExactReal
import SphereMotion.Proofs.StoredTables

namespace SphereMotion

open Scalar
open Exact (real)

namespace SampledTable

/-- A table over a range of real numbers. -/
structure Spans (t : SampledTable Exact) (low high : ℝ) : Prop where
  low_eq : t.low = real low
  high_eq : t.high = real high

theorem one_le_steps (t : SampledTable Exact) : (1 : ℝ) ≤ (t.samples - 1 : Nat) := by
  have enough := t.two_le_samples
  exact_mod_cast (by omega : 1 ≤ t.samples - 1)

theorem lookup_eq (t : SampledTable Exact) (x : ℝ) : t.lookup (real x) = t.output (t.nearestSample (real x)) := by
  rw [lookup, Exact.isUndefined_real, if_neg Bool.false_ne_true]

theorem nearestSample_lt (t : SampledTable Exact) (x : Exact) : t.nearestSample x < t.samples := by
  have enough := t.two_le_samples
  have last : t.nearestSample x ≤ t.samples - 1 := Nearest.toIndex_le _ _
  omega

namespace Spans

variable {t : SampledTable Exact} {low high : ℝ} (spans : t.Spans low high)
include spans

theorem low_lt_high : low < high := by
  have range := t.low_lt_high
  rwa [spans.low_eq, spans.high_eq, Exact.real_lt] at range

theorem input_eq (i : Nat) : t.input i = real (low + i * ((high - low) / (t.samples - 1 : Nat))) := by
  have steps : ((t.samples - 1 : Nat) : ℝ) ≠ 0 := (zero_lt_one.trans_le t.one_le_steps).ne'
  rw [input, step, spans.low_eq, spans.high_eq, Exact.real_sub, Exact.ofInt_eq, Exact.ofInt_eq, Int.cast_natCast,
    Int.cast_natCast, Exact.real_div steps, Exact.real_mul, Exact.real_add]

theorem input_eq_low_iff {i : Nat} : t.input i = real low ↔ i = 0 := by
  have step : (high - low) / (t.samples - 1 : Nat) ≠ 0 :=
    div_ne_zero (sub_pos.mpr spans.low_lt_high).ne' (zero_lt_one.trans_le t.one_le_steps).ne'
  rw [spans.input_eq, Exact.real.injEq, add_eq_left, mul_eq_zero_iff_right step, Nat.cast_eq_zero]

theorem input_mem {i : Nat} (sampled : i < t.samples) : ∃ x ∈ Set.Icc low high, t.input i = real x := by
  have range := spans.low_lt_high
  have steps := zero_lt_one.trans_le t.one_le_steps
  have last : (i : ℝ) ≤ (t.samples - 1 : Nat) := by exact_mod_cast (by omega : i ≤ t.samples - 1)
  have fraction : i * ((high - low) / (t.samples - 1 : Nat)) ≤ high - low := by
    rw [mul_div_assoc', div_le_iff₀ steps, mul_comm (high - low)]
    exact mul_le_mul_of_nonneg_right last (sub_pos.mpr range).le
  have nonneg : 0 ≤ i * ((high - low) / (t.samples - 1 : Nat)) :=
    mul_nonneg i.cast_nonneg (div_nonneg (sub_pos.mpr range).le steps.le)
  exact ⟨_, ⟨by linarith, by linarith⟩, spans.input_eq i⟩

/-- The index of the nearest sample is the place in the range, in steps, rounded with a half going up. -/
theorem nearestSample_eq (x : ℝ) : t.nearestSample (real x) =
    ⌊max 0 (min ((x - low) / (high - low)) 1) * (t.samples - 1 : Nat) + 1 / 2⌋₊ := by
  have range := sub_pos.mpr spans.low_lt_high
  set place := max 0 (min ((x - low) / (high - low)) 1) with within
  have nonneg : 0 ≤ place * (t.samples - 1 : Nat) := mul_nonneg (le_max_left _ _) (Nat.cast_nonneg _)
  have most : place * (t.samples - 1 : Nat) ≤ (t.samples - 1 : Nat) :=
    mul_le_of_le_one_left (Nat.cast_nonneg _) (max_le zero_le_one (min_le_right _ _))
  have fraction : clamp ((real x - t.low) / (t.high - t.low)) 0 1 = real place := by
    rw [spans.low_eq, spans.high_eq, Exact.real_sub, Exact.real_sub, Exact.real_div range.ne', Exact.ofNat_eq,
      Exact.ofNat_eq, Nat.cast_zero, Nat.cast_one, Exact.clamp_real zero_le_one]
  have rounded : nearest (real (place * (t.samples - 1 : Nat))) =
      .whole ⌊place * (t.samples - 1 : Nat) + 1 / 2⌋ := congrArg Nearest.whole (if_pos nonneg)
  have last : ⌊place * (t.samples - 1 : Nat) + 1 / 2⌋₊ ≤ t.samples - 1 := by
    rw [← Nat.lt_add_one_iff, Nat.floor_lt (by linarith)]
    push_cast
    linarith
  rw [nearestSample]
  simp only [fraction, Exact.ofInt_eq, Int.cast_natCast, Exact.real_mul, rounded, Nearest.toIndex, Int.floor_toNat]
  exact min_eq_left last

/-- Less than half a step from the lower end, the first sample is the nearest one. -/
theorem nearestSample_eq_zero_iff {x : ℝ} (within : low ≤ x) :
    t.nearestSample (real x) = 0 ↔ 2 * (t.samples - 1 : Nat) * (x - low) < high - low := by
  have range := sub_pos.mpr spans.low_lt_high
  have steps := t.one_le_steps
  have nonneg : 0 ≤ (x - low) / (high - low) := div_nonneg (sub_nonneg.mpr within) range.le
  rw [spans.nearestSample_eq, Nat.floor_eq_zero, max_eq_right (le_min nonneg zero_le_one)]
  rcases le_total ((x - low) / (high - low)) 1 with inside | beyond
  · rw [min_eq_left inside, div_mul_eq_mul_div, ← lt_sub_iff_add_lt, div_lt_iff₀ range]
    constructor <;> intro <;> linarith
  · have far := (one_le_div range).mp beyond
    rw [min_eq_right beyond]
    constructor
    · intro near
      linarith
    · intro near
      nlinarith

theorem inverseLookup_mem (y : ℝ) : ∃ x ∈ Set.Icc low high, t.inverseLookup (real y) = real x := by
  have enough := t.two_le_samples
  have last : t.below (real y) ≤ t.samples := by
    have bound : t.below (real y) ≤ 0 + t.samples := bisect_le _ 0 (by omega)
    rwa [Nat.zero_add] at bound
  rw [inverseLookup]
  simp only [Exact.isUndefined_real, Bool.false_eq_true, ↓reduceIte]
  split_ifs <;> exact spans.input_mem (by omega)

end Spans

end SampledTable

end SphereMotion
