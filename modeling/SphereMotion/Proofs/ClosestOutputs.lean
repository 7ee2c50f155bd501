import Mathlib
import SphereMotion.Proofs.ExactTables

namespace SphereMotion

open Scalar
open Exact (real)

/-- The sample whose value is closest to `y`. The middle to any earlier sample lies below `y`, and the middle
to any later one does not, so that a tie goes to the earlier sample. -/
structure Closest {n : ℕ} (value : Fin n → ℝ) (y : ℝ) (i : Fin n) : Prop where
  earlier : ∀ j < i, value j + value i < 2 * y
  later : ∀ j > i, 2 * y ≤ value i + value j

namespace Closest

variable {n : ℕ} {value : Fin n → ℝ} {y : ℝ} {i j : Fin n}

/-- Of two values the larger one has the later sample. -/
theorem le_of_le {y' : ℝ} (closest : Closest value y i) (closest' : Closest value y' j) (ordered : y ≤ y') :
    i ≤ j := by
  by_contra crossed
  have below := closest.earlier j (not_le.mp crossed)
  have above := closest'.later i (not_le.mp crossed)
  linarith

theorem eq (closest : Closest value y i) (closest' : Closest value y j) : i = j :=
  le_antisymm (closest.le_of_le closest' le_rfl) (closest'.le_of_le closest le_rfl)

theorem first (least : ∀ j, i ≤ j) (above : ∀ j, y ≤ value j) : Closest value y i where
  earlier j before := absurd before (least j).not_gt
  later j _ := by linarith [above i, above j]

theorem last (greatest : ∀ j, j ≤ i) (below : ∀ j, value j < y) : Closest value y i where
  earlier j _ := by linarith [below i, below j]
  later j after := absurd after (greatest j).not_gt

section Rising

variable (rising : Monotone value)
include rising

theorem abs_sub_le (closest : Closest value y i) (j : Fin n) : |value i - y| ≤ |value j - y| := by
  rcases lt_trichotomy j i with before | same | after
  · have middle := closest.earlier j before
    have ordered := rising before.le
    exact (abs_le.mpr ⟨by linarith, by linarith⟩).trans (neg_le_abs _)
  · rw [same]
  · have middle := closest.later j after
    have ordered := rising after.le
    exact (abs_le.mpr ⟨by linarith, by linarith⟩).trans (le_abs_self _)

/-- At a value nothing else is closest. -/
theorem eq_of_hit (closest : Closest value y i) (hit : value j = y) : value i = y := by
  have near := closest.abs_sub_le rising j
  rw [hit, sub_self, abs_zero, abs_nonpos_iff] at near
  exact sub_eq_zero.mp near

/-- On a tie the value is the lower one. -/
theorem le_of_tie (closest : Closest value y i) (tie : |value j - y| = |value i - y|) : value i ≤ value j := by
  rcases lt_or_ge j i with before | after
  · have middle := closest.earlier j before
    have ordered := rising before.le
    rw [abs_of_nonpos (by linarith : value j - y ≤ 0)] at tie
    rcases abs_cases (value i - y) with ⟨above, -⟩ | ⟨below, -⟩ <;> linarith
  · exact rising after

/-- Beyond all values it is the largest one. -/
theorem le_of_beyond (closest : Closest value y i) (beyond : ∀ j, value j < y) (j : Fin n) : value j ≤ value i := by
  have near := closest.abs_sub_le rising j
  rw [abs_of_neg (sub_neg.mpr (beyond i)), abs_of_neg (sub_neg.mpr (beyond j))] at near
  linarith

/-- Within the values the distance is at most half of the difference of two neighbors. -/
theorem exists_neighbors (several : 2 ≤ n) (closest : Closest value y i) (from_ : ∃ j, value j ≤ y)
    (upTo : ∃ j, y ≤ value j) :
    ∃ (k : Nat) (next : k + 1 < n), |value i - y| ≤ (value ⟨k + 1, next⟩ - value ⟨k, by omega⟩) / 2 := by
  obtain ⟨low, below⟩ := from_
  obtain ⟨high, above⟩ := upTo
  rcases lt_or_ge (value i) y with under | reached
  · have after : i < high := not_le.mp fun before => (above.trans (rising before)).not_gt under
    have next : i.val + 1 < n := by omega
    have middle := closest.later ⟨i.val + 1, next⟩ (Fin.lt_def.mpr (Nat.lt_succ_self _))
    refine ⟨i, next, ?_⟩
    rw [abs_of_neg (by linarith)]
    linarith
  · by_cases first : i.val = 0
    · have least : value i ≤ value low := rising (Fin.le_def.mpr (by omega))
      have hit : value i = y := le_antisymm (least.trans below) reached
      have ordered : value ⟨0, by omega⟩ ≤ value ⟨0 + 1, by omega⟩ := rising (Fin.mk_le_mk.mpr (by omega))
      refine ⟨0, by omega, ?_⟩
      rw [hit, sub_self, abs_zero]
      linarith
    · have next : i.val - 1 + 1 < n := by omega
      have same : (⟨i.val - 1 + 1, next⟩ : Fin n) = i := Fin.ext (by simp only; omega)
      have middle := closest.earlier ⟨i.val - 1, by omega⟩ (Fin.lt_def.mpr (by simp only; omega))
      refine ⟨i.val - 1, next, ?_⟩
      rw [same, abs_of_nonneg (by linarith)]
      linarith

/-- The first sample with the value itself. -/
theorem of_isLeast (hit : IsLeast {j | value j = y} i) : Closest value y i where
  earlier j before := by
    have ordered := rising before.le
    have apart : value j ≠ y := fun same => before.not_ge (hit.2 same)
    have same : value i = y := hit.1
    rw [same] at ordered ⊢
    linarith [lt_of_le_of_ne ordered apart]
  later j after := by
    have ordered := rising after.le
    have same : value i = y := hit.1
    linarith

/-- The last sample of the lower of two adjacent values. -/
theorem of_lower {a b : ℝ} (adjacent : ∀ j, value j ≤ a ∨ b ≤ value j) (below : a < y) (near : y - a ≤ b - y)
    (last : IsGreatest {j | value j = a} i) : Closest value y i where
  earlier j before := by
    have ordered := rising before.le
    have lower : value i = a := last.1
    linarith
  later j after := by
    have ordered := rising after.le
    have lower : value i = a := last.1
    have apart : value j ≠ a := fun same => after.not_ge (last.2 same)
    rw [lower] at ordered ⊢
    have upper := (adjacent j).resolve_left (lt_of_le_of_ne ordered apart.symm).not_ge
    linarith

/-- The first sample of the upper of two adjacent values. -/
theorem of_upper {a b : ℝ} (adjacent : ∀ j, value j ≤ a ∨ b ≤ value j) (above : y ≤ b) (near : b - y < y - a)
    (first : IsLeast {j | value j = b} i) : Closest value y i where
  earlier j before := by
    have ordered := rising before.le
    have upper : value i = b := first.1
    have apart : value j ≠ b := fun same => before.not_ge (first.2 same)
    rw [upper] at ordered ⊢
    have lower := (adjacent j).resolve_right (lt_of_le_of_ne ordered apart).not_ge
    linarith
  later j after := by
    have ordered := rising after.le
    have upper : value i = b := first.1
    linarith

end Rising

end Closest

namespace SampledTable

section Bisection

variable {holds : Nat → Bool}

theorem le_bisect (start count : Nat) : start ≤ bisect holds start count := by
  fun_induction bisect holds start count with
  | case1 start count single found => omega
  | case2 start count single notFound => omega
  | case3 start count several found ih => omega
  | case4 start count several notFound ih => omega

/-- Bisection finds the end of the run, if indices before one that holds also hold. -/
theorem lt_bisect_iff {start count i : Nat}
    (run : ∀ i j, start ≤ i → i ≤ j → j < start + count → holds j = true → holds i = true)
    (after : start ≤ i) (before : i < start + count) : i < bisect holds start count ↔ holds i = true := by
  fun_induction bisect holds start count with
  | case1 start count single found =>
    have same : i = start := by omega
    subst same
    exact iff_of_true (Nat.lt_succ_self i) found
  | case2 start count single notFound =>
    have same : i = start := by omega
    subst same
    exact iff_of_false (Nat.lt_irrefl i) notFound
  | case3 start count several found ih =>
    rcases Nat.lt_or_ge i (start + count / 2) with low | high
    · have reached : start + count / 2 ≤ bisect holds (start + count / 2) (count - count / 2) := le_bisect _ _
      exact iff_of_true (by omega) (run i _ after low.le (by omega) found)
    · exact ih (fun i j from_ upTo within => run i j (by omega) upTo (by omega)) high (by omega)
  | case4 start count several notFound ih =>
    rcases Nat.lt_or_ge i (start + (count - count / 2)) with low | high
    · exact ih (fun i j from_ upTo within => run i j from_ upTo (by omega)) after low
    · have reached : bisect holds start (count - count / 2) ≤ start + (count - count / 2) :=
        bisect_le _ _ (by omega)
      exact iff_of_false (by omega) fun found => notFound (run _ i (by omega) (by omega) before found)

end Bisection

/-- The outputs are these real numbers, sample by sample. -/
def Tabulates (t : SampledTable Exact) (value : Fin t.samples → ℝ) : Prop :=
  ∀ i : Fin t.samples, t.output i = real (value i)

theorem exists_spans (t : SampledTable Exact) : ∃ low high : ℝ, t.Spans low high := by
  obtain ⟨low, high, samples, function, enough, range⟩ := t
  cases low <;> cases high <;> first | exact ⟨_, _, rfl, rfl⟩ | exact range.elim

theorem input_le_input (t : SampledTable Exact) {i j : Nat} (ordered : i ≤ j) : t.input i ≤ t.input j := by
  obtain ⟨low, high, spans⟩ := t.exists_spans
  have range := sub_pos.mpr spans.low_lt_high
  have steps := zero_lt_one.trans_le t.one_le_steps
  rw [spans.input_eq, spans.input_eq, Exact.real_le]
  gcongr

namespace Tabulates

variable {t : SampledTable Exact} {value : Fin t.samples → ℝ} (outputs : t.Tabulates value)
  (rising : Monotone value)
include outputs rising

theorem lt_below_iff (y : ℝ) (i : Fin t.samples) : i.val < t.below (real y) ↔ value i < y := by
  have less (j : Fin t.samples) : decide (t.output j < real y) = true ↔ value j < y := by
    rw [decide_eq_true_iff, outputs j, Exact.real_lt]
  have run (j k : Nat) (_ : 0 ≤ j) (upTo : j ≤ k) (within : k < 0 + t.samples)
      (found : decide (t.output k < real y) = true) : decide (t.output j < real y) = true := by
    rw [Nat.zero_add] at within
    have ordered : value ⟨j, upTo.trans_lt within⟩ ≤ value ⟨k, within⟩ := rising upTo
    exact (less _).mpr (ordered.trans_lt ((less ⟨k, within⟩).mp found))
  rw [below, lt_bisect_iff run i.val.zero_le (by omega), less]

/-- The sample that is found is the closest one. -/
theorem exists_closest (y : ℝ) : ∃ i : Fin t.samples, t.inverseLookup (real y) = t.input i ∧ Closest value y i := by
  have enough := t.two_le_samples
  have most : t.below (real y) ≤ 0 + t.samples := bisect_le _ 0 (by omega)
  have split := outputs.lt_below_iff rising y
  rw [inverseLookup]
  generalize t.below (real y) = k at most split ⊢
  simp only [Exact.isUndefined_real, Bool.false_eq_true, ↓reduceIte]
  by_cases none : k = 0
  · refine ⟨⟨0, by omega⟩, if_pos none, .first (fun j => Nat.zero_le j) fun j => ?_⟩
    exact not_lt.mp (mt (split j).mpr (by omega))
  by_cases all : k = t.samples
  · refine ⟨⟨t.samples - 1, by omega⟩, by rw [if_neg none, if_pos all], .last (fun j => ?_) fun j => ?_⟩
    · exact Fin.mk_le_mk.mpr (by omega)
    · exact (split j).mp (by omega)
  -- The two samples around `y` have adjacent values, and the lower one is not `y` itself.
  let lower : Fin t.samples := ⟨k - 1, by omega⟩
  let upper : Fin t.samples := ⟨k, by omega⟩
  have below : value lower < y := (split lower).mp (Nat.sub_one_lt none)
  have above : y ≤ value upper := not_lt.mp (mt (split upper).mpr (Nat.lt_irrefl k))
  have adjacent (j : Fin t.samples) : value j ≤ value lower ∨ value upper ≤ value j := by
    rcases Nat.lt_or_ge j k with low | high
    · exact .inl (rising (Fin.mk_le_mk.mpr (by omega)))
    · exact .inr (rising (Fin.mk_le_mk.mpr high))
  have last : IsGreatest {j | value j = value lower} lower := by
    refine ⟨rfl, fun j same => Fin.mk_le_mk.mpr ?_⟩
    have := (split j).mpr (lt_of_eq_of_lt same below)
    omega
  have first : IsLeast {j | value j = value upper} upper :=
    ⟨rfl, fun j same => not_lt.mp fun before => ((split j).mp before).not_ge (above.trans_eq (Eq.symm same))⟩
  have outputLower : t.output (k - 1) = real (value lower) := outputs lower
  have outputUpper : t.output k = real (value upper) := outputs upper
  rw [if_neg none, if_neg all, outputLower, outputUpper]
  simp only [Exact.real_sub, Exact.real_lt, Exact.real_beq]
  by_cases near : value upper - y < y - value lower
  · exact ⟨upper, by rw [if_pos near, ite_self], .of_upper rising adjacent above near first⟩
  · have apart : value upper ≠ y := fun hit => near (by linarith)
    exact ⟨lower, by rw [if_neg apart, if_neg near], .of_lower rising adjacent below (not_lt.mp near) last⟩

theorem inverseLookup_eq {y : ℝ} {i : Fin t.samples} (closest : Closest value y i) :
    t.inverseLookup (real y) = t.input i := by
  obtain ⟨j, found, closest'⟩ := outputs.exists_closest rising y
  rw [found, closest'.eq closest]

theorem inverseLookup_le {y y' : ℝ} (ordered : y ≤ y') : t.inverseLookup (real y) ≤ t.inverseLookup (real y') := by
  obtain ⟨i, found, closest⟩ := outputs.exists_closest rising y
  obtain ⟨j, found', closest'⟩ := outputs.exists_closest rising y'
  rw [found, found']
  exact t.input_le_input (closest.le_of_le closest' ordered)

end Tabulates

/-- The search ends at an output of least distance. It is the first sample with the value itself, if
there is one. Between two adjacent values it is the last sample of the lower value, unless the first one
of the upper value is nearer. Beyond all outputs it is the first or the last sample. A larger value
never leads to a smaller input. -/
theorem inverseLookup_closest {t : SampledTable Exact} {value : Fin t.samples → ℝ} (outputs : t.Tabulates value)
    (rising : Monotone value) :
    (∀ y, ∃ i : Fin t.samples, t.inverseLookup (real y) = t.input i ∧ ∀ j, |value i - y| ≤ |value j - y|) ∧
      (∀ y (i : Fin t.samples), IsLeast {j | value j = y} i → t.inverseLookup (real y) = t.input i) ∧
      (∀ y (i k : Fin t.samples), value i < y → y < value k → (∀ j, value j ≤ value i ∨ value k ≤ value j) →
        IsGreatest {j | value j = value i} i → IsLeast {j | value j = value k} k →
          t.inverseLookup (real y) = if y - value i ≤ value k - y then t.input i else t.input k) ∧
      (∀ y, (∀ j, y ≤ value j) → t.inverseLookup (real y) = t.input 0) ∧
      (∀ y, (∀ j, value j < y) → t.inverseLookup (real y) = t.input (t.samples - 1)) ∧
      ∀ y y', y ≤ y' → t.inverseLookup (real y) ≤ t.inverseLookup (real y') := by
  have enough := t.two_le_samples
  refine ⟨fun y => ?_, fun y i hit => ?_, fun y i k below above adjacent last first => ?_, fun y above => ?_,
    fun y below => ?_, fun y y' ordered => outputs.inverseLookup_le rising ordered⟩
  · obtain ⟨i, found, closest⟩ := outputs.exists_closest rising y
    exact ⟨i, found, closest.abs_sub_le rising⟩
  · exact outputs.inverseLookup_eq rising (.of_isLeast rising hit)
  · split
    next near => exact outputs.inverseLookup_eq rising (.of_lower rising adjacent below near last)
    next far => exact outputs.inverseLookup_eq rising (.of_upper rising adjacent above.le (not_le.mp far) first)
  · have closest : Closest value y ⟨0, by omega⟩ := .first (fun j => Nat.zero_le j) above
    exact outputs.inverseLookup_eq rising closest
  · have closest : Closest value y ⟨t.samples - 1, by omega⟩ := .last (fun j => Fin.mk_le_mk.mpr (by omega)) below
    exact outputs.inverseLookup_eq rising closest

/-- Two plateaus of outputs and a last one above them: the end of the first plateau and the start of the second. -/
theorem plateaus : let value : Fin 5 → ℝ := fun i => (i.val / 2 : Nat)
    Monotone value ∧ IsGreatest {j | value j = value 1} 1 ∧ IsLeast {j | value j = value 2} 2 ∧
      ∀ j, value j ≤ value 1 ∨ value 2 ≤ value j := by
  intro value
  have rising : Monotone value := fun i j ordered => Nat.cast_le.mpr (Nat.div_le_div_right ordered)
  have half {i j : Fin 5} (same : value j = value i) : j.val / 2 = i.val / 2 := Nat.cast_injective same
  refine ⟨rising, ⟨rfl, fun j same => ?_⟩, ⟨rfl, fun j same => ?_⟩, fun j => ?_⟩
  · have low : j.val / 2 = 0 := half same
    exact Fin.le_def.mpr (show j.val ≤ 1 by omega)
  · have high : j.val / 2 = 1 := half same
    exact Fin.le_def.mpr (show 2 ≤ j.val by omega)
  · rcases Nat.lt_or_ge j.val 2 with low | high
    · exact .inl (rising (Fin.le_def.mpr (show j.val ≤ 1 by omega)))
    · exact .inr (rising (Fin.le_def.mpr high))

theorem tabulates_plateaus : let t : SampledTable Exact :=
      ⟨real 0, real 2, 5, Exact.lift fun x => ⌊x⌋₊, by decide, Exact.real_lt.mpr two_pos⟩
    t.Tabulates fun i => (i.val / 2 : Nat) := by
  intro t i
  have spans : t.Spans 0 2 := ⟨rfl, rfl⟩
  have place : 0 + i.val * ((2 - 0) / (t.samples - 1 : Nat)) = (i.val : ℝ) / (2 : Nat) := by
    norm_num [t]
    ring
  rw [output, spans.input_eq, place]
  exact congrArg (fun m : Nat => real m) (Nat.floor_div_eq_div i.val 2)

/-- A table of two plateaus and a last sample above them. -/
theorem inverseLookup_closest_of_plateaus :
    let t : SampledTable Exact :=
      ⟨real 0, real 2, 5, Exact.lift fun x => ⌊x⌋₊, by decide, Exact.real_lt.mpr two_pos⟩
    let value : Fin t.samples → ℝ := fun i => (i.val / 2 : Nat)
    (t.Tabulates value ∧ Monotone value) ∧ t.inverseLookup (real 1) = t.input 2 ∧
      t.inverseLookup (real (1 / 2)) = t.input 1 ∧ t.inverseLookup (real (3 / 5)) = t.input 2 ∧
        t.inverseLookup (real (-1)) = t.input 0 ∧ t.inverseLookup (real 3) = t.input 4 ∧
          t.inverseLookup (real (1 / 2)) ≤ t.inverseLookup (real 1) := by
  intro t value
  have outputs : t.Tabulates value := tabulates_plateaus
  obtain ⟨rising, last, least, adjacent⟩ : Monotone value ∧ _ := plateaus
  let first : Fin t.samples := ⟨1, by decide⟩
  let second : Fin t.samples := ⟨2, by decide⟩
  have zero : value first = 0 := (congrArg Nat.cast (show 1 / 2 = 0 from rfl)).trans Nat.cast_zero
  have one : value second = 1 := (congrArg Nat.cast (show 2 / 2 = 1 from rfl)).trans Nat.cast_one
  obtain ⟨-, hit, between, before, beyond, ordered⟩ := inverseLookup_closest outputs rising
  refine ⟨⟨outputs, rising⟩, ?_, ?_, ?_, ?_, ?_, ?_⟩
  · exact hit 1 second ⟨one, fun j same => least.2 (Eq.trans same one.symm)⟩
  · rw [between (1 / 2) first second (by norm_num [zero]) (by norm_num [one]) adjacent last least, zero, one]
    exact if_pos (by norm_num)
  · rw [between (3 / 5) first second (by norm_num [zero]) (by norm_num [one]) adjacent last least, zero, one]
    exact if_neg (by norm_num)
  · exact before (-1) fun j => (neg_one_lt_zero.le).trans (Nat.cast_nonneg _)
  · refine beyond 3 fun j => ?_
    have within : j.val < 5 := j.isLt
    exact Nat.cast_lt_ofNat.mpr (by omega)
  · exact ordered (1 / 2) 1 (by norm_num)

end SampledTable

end SphereMotion
