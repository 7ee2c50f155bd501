import Mathlib
import SphereMotion.Proofs.ClosestOutputs

namespace SphereMotion

open Scalar
open Exact (real)

namespace SampledTable

/-- The distance of neighboring inputs of a table from `low` to `high`. -/
noncomputable def gap (t : SampledTable Exact) (low high : ℝ) : ℝ := (high - low) / (t.samples - 1 : Nat)

/-- The input of a sample of a table from `low` to `high`. -/
noncomputable def place (t : SampledTable Exact) (low high : ℝ) (i : Nat) : ℝ := low + i * t.gap low high

theorem steps_mul_gap (t : SampledTable Exact) (low high : ℝ) :
    (t.samples - 1 : Nat) * t.gap low high = high - low :=
  mul_div_cancel₀ _ (zero_lt_one.trans_le t.one_le_steps).ne'

namespace Spans

variable {t : SampledTable Exact} {low high : ℝ} (spans : t.Spans low high)
include spans

theorem gap_pos : 0 < t.gap low high :=
  div_pos (sub_pos.mpr spans.low_lt_high) (zero_lt_one.trans_le t.one_le_steps)

theorem input_eq_place (i : Nat) : t.input i = real (t.place low high i) := spans.input_eq i

/-- The place in the range, as a fraction of it. -/
theorem fraction_eq (x : ℝ) :
    max 0 (min ((x - low) / (high - low)) 1) = (max low (min x high) - low) / (high - low) := by
  have range := sub_pos.mpr spans.low_lt_high
  rw [← max_sub_sub_right, ← min_sub_sub_right, sub_self, ← max_div_div_right range.le,
    ← min_div_div_right range.le, zero_div, div_self range.ne']

/-- An input within the range is at most half a step below the sample that it is rounded to, or less
than half a step above it. -/
theorem place_nearestSample (x : ℝ) :
    t.place low high (t.nearestSample (real x)) - max low (min x high) ≤ t.gap low high / 2 ∧
      max low (min x high) - t.place low high (t.nearestSample (real x)) < t.gap low high / 2 := by
  have range := sub_pos.mpr spans.low_lt_high
  have gap := spans.gap_pos
  set c := max low (min x high)
  set u := (c - low) / (high - low) * (t.samples - 1 : Nat) with steps
  have nonneg : 0 ≤ u := by
    have := spans.fraction_eq x ▸ le_max_left 0 (min ((x - low) / (high - low)) 1)
    exact mul_nonneg this (Nat.cast_nonneg _)
  have offset : c - low = u * t.gap low high := by
    rw [steps, mul_assoc, t.steps_mul_gap, div_mul_cancel₀ _ range.ne']
  have lower : (⌊u + 1 / 2⌋₊ : ℝ) ≤ u + 1 / 2 := Nat.floor_le (by linarith)
  have upper : u + 1 / 2 < ⌊u + 1 / 2⌋₊ + 1 := Nat.lt_floor_add_one _
  rw [spans.nearestSample_eq, spans.fraction_eq, place]
  constructor <;> nlinarith

theorem place_add_gap_le {i j : Nat} (before : i < j) :
    t.place low high i + t.gap low high ≤ t.place low high j := by
  have gap := spans.gap_pos
  have next : (i : ℝ) + 1 ≤ j := by exact_mod_cast before
  rw [place, place, add_assoc, ← add_one_mul]
  gcongr

/-- No other sample is as near as the one that an input is rounded to, but for a tie, which goes to
the higher sample. -/
theorem abs_place_nearestSample_sub_le (x : ℝ) (j : Nat) :
    let i := t.nearestSample (real x)
    let c := max low (min x high)
    |t.place low high i - c| ≤ |t.place low high j - c| ∧
      (|t.place low high j - c| = |t.place low high i - c| → j ≤ i) := by
  intro i c
  obtain ⟨below, above⟩ := spans.place_nearestSample x
  have near : |t.place low high i - c| ≤ t.gap low high / 2 := abs_le.mpr ⟨by linarith, below⟩
  rcases lt_trichotomy j i with before | same | after
  · have apart := spans.place_add_gap_le before
    refine ⟨?_, fun _ => before.le⟩
    exact near.trans ((by linarith : t.gap low high / 2 ≤ -(t.place low high j - c)).trans (neg_le_abs _))
  · rw [same]
    exact ⟨le_rfl, fun _ => le_rfl⟩
  · have apart := spans.place_add_gap_le after
    have far : t.gap low high / 2 < |t.place low high j - c| :=
      (by linarith : t.gap low high / 2 < t.place low high j - c).trans_le (le_abs_self _)
    exact ⟨near.trans far.le, fun tie => absurd tie (near.trans_lt far).ne'⟩

theorem nearestSample_input {i : Nat} (sampled : i < t.samples) : t.nearestSample (t.input i) = i := by
  obtain ⟨c, within, input⟩ := spans.input_mem sampled
  obtain ⟨below, above⟩ := spans.place_nearestSample c
  have place : t.place low high i = c := by
    rwa [spans.input_eq_place, Exact.real.injEq] at input
  rw [min_eq_left within.2, max_eq_right within.1, ← place] at below above
  rw [input, ← place]
  rcases lt_trichotomy (t.nearestSample (real (t.place low high i))) i with before | same | after
  · linarith [spans.place_add_gap_le before]
  · exact same
  · linarith [spans.place_add_gap_le after]

/-- Beyond the range an input is rounded to the last sample. -/
theorem place_nearestSample_of_le {x : ℝ} (beyond : high ≤ x) :
    t.place low high (t.nearestSample (real x)) = high := by
  have last : t.place low high (t.samples - 1 : Nat) = high := by
    rw [place, t.steps_mul_gap, add_sub_cancel]
  obtain ⟨-, above⟩ := spans.place_nearestSample x
  have gap := spans.gap_pos
  have within := t.nearestSample_lt (real x)
  rw [min_eq_right beyond, max_eq_right spans.low_lt_high.le] at above
  rcases Nat.lt_or_ge (t.nearestSample (real x)) (t.samples - 1) with before | reached
  · linarith [spans.place_add_gap_le before]
  · rwa [show t.nearestSample (real x) = t.samples - 1 by omega]

end Spans

variable {t : SampledTable Exact}

theorem lookup_input {i : Nat} (sampled : i < t.samples) : t.lookup (t.input i) = t.output i := by
  obtain ⟨low, high, spans⟩ := t.exists_spans
  obtain ⟨x, -, input⟩ := spans.input_mem sampled
  rw [input, lookup_eq, ← input, spans.nearestSample_input sampled]

namespace Tabulates

variable {value : Fin t.samples → ℝ} (outputs : t.Tabulates value)
include outputs

theorem exists_lookup (x : ℝ) :
    ∃ i : Fin t.samples, i.val = t.nearestSample (real x) ∧ t.lookup (real x) = real (value i) := by
  refine ⟨⟨t.nearestSample (real x), t.nearestSample_lt _⟩, rfl, ?_⟩
  rw [lookup_eq]
  exact outputs ⟨_, t.nearestSample_lt _⟩

/-- What is found for an output of the table is a sample with that output. -/
theorem lookup_inverseLookup_value (rising : Monotone value) (i : Fin t.samples) :
    t.lookup (t.inverseLookup (real (value i))) = real (value i) := by
  obtain ⟨j, found, closest⟩ := outputs.exists_closest rising (value i)
  rw [found, lookup_input j.isLt, outputs j, closest.eq_of_hit rising rfl]

/-- If no output repeats, it is the only sample with that output. -/
theorem inverseLookup_value (strict : StrictMono value) (i : Fin t.samples) :
    t.inverseLookup (real (value i)) = t.input i :=
  outputs.inverseLookup_eq strict.monotone
    (.of_isLeast strict.monotone ⟨rfl, fun _ same => (strict.injective same).ge⟩)

end Tabulates

/-- An input is looked up at the sample nearest to it within the range, the higher one on a tie, and the input
of a sample at the sample itself. If the outputs do not decrease, what is found for a value is looked up at an
output of least distance, and an output that was looked up is found and looked up again. If they increase, an
input is found again within half a step. -/
theorem lookup_inverseLookup_nearest {t : SampledTable Exact} {low high : ℝ} (spans : t.Spans low high) :
    (∀ x, ∃ i : Fin t.samples, t.lookup (real x) = t.output i ∧
      ∀ j : Fin t.samples,
        |t.place low high i - max low (min x high)| ≤ |t.place low high j - max low (min x high)| ∧
          (|t.place low high j - max low (min x high)| = |t.place low high i - max low (min x high)| → j ≤ i)) ∧
      (∀ i : Fin t.samples, t.input i = real (t.place low high i) ∧ t.lookup (t.input i) = t.output i) ∧
      ∀ value : Fin t.samples → ℝ, t.Tabulates value →
        (Monotone value →
          (∀ y, ∃ i, t.lookup (t.inverseLookup (real y)) = real (value i) ∧ ∀ j, |value i - y| ≤ |value j - y|) ∧
            ∀ x, t.lookup (t.inverseLookup (t.lookup (real x))) = t.lookup (real x)) ∧
        (StrictMono value →
          ∀ x, ∃ x', t.inverseLookup (t.lookup (real x)) = real x' ∧
            |x' - max low (min x high)| ≤ t.gap low high / 2) := by
  refine ⟨fun x => ?_, fun i => ⟨spans.input_eq_place i, lookup_input i.isLt⟩, fun value outputs => ⟨?_, ?_⟩⟩
  · refine ⟨⟨t.nearestSample (real x), t.nearestSample_lt _⟩, lookup_eq t x, fun j => ?_⟩
    exact spans.abs_place_nearestSample_sub_le x j
  · refine fun rising => ⟨fun y => ?_, fun x => ?_⟩
    · obtain ⟨i, found, closest⟩ := outputs.exists_closest rising y
      exact ⟨i, by rw [found, lookup_input i.isLt, outputs i], closest.abs_sub_le rising⟩
    · obtain ⟨i, -, output⟩ := outputs.exists_lookup x
      rw [output, outputs.lookup_inverseLookup_value rising]
  · intro strict x
    obtain ⟨i, nearest, output⟩ := outputs.exists_lookup x
    obtain ⟨below, above⟩ := spans.place_nearestSample x
    rw [← nearest] at below above
    refine ⟨t.place low high i, ?_, abs_le.mpr ⟨by linarith, below⟩⟩
    rw [output, outputs.inverseLookup_value strict, spans.input_eq_place]

/-- Squares, looked up between two samples. -/
theorem lookup_inverseLookup_nearest_of_squares :
    let t : SampledTable Exact := ⟨real 0, real 2, 5, fun x => x * x, by decide, Exact.real_lt.mpr two_pos⟩
    let value : Fin t.samples → ℝ := fun i => t.place 0 2 i * t.place 0 2 i
    t.Spans 0 2 ∧ t.Tabulates value ∧ Monotone value ∧ StrictMono value ∧
      t.lookup (t.inverseLookup (t.lookup (real (11 / 10)))) = t.lookup (real (11 / 10)) ∧
        ∃ x', t.inverseLookup (t.lookup (real (11 / 10))) = real x' ∧
          |x' - max 0 (min (11 / 10) 2)| ≤ t.gap 0 2 / 2 := by
  intro t value
  have spans : t.Spans 0 2 := ⟨rfl, rfl⟩
  have outputs : t.Tabulates value := fun i => congrArg₂ (· * ·) (spans.input_eq_place i) (spans.input_eq_place i)
  have strict : StrictMono value := by
    intro i j before
    have gap := spans.gap_pos
    have apart := spans.place_add_gap_le before
    have nonneg : 0 ≤ t.place 0 2 i := add_nonneg le_rfl (mul_nonneg (Nat.cast_nonneg _) gap.le)
    exact mul_self_lt_mul_self nonneg (by linarith)
  obtain ⟨again, within⟩ := (lookup_inverseLookup_nearest spans).2.2 value outputs
  exact ⟨spans, outputs, strict.monotone, strict, (again strict.monotone).2 _, within strict _⟩

end SampledTable

end SphereMotion
