import Mathlib
import SphereMotion.SampledTable
import SphereMotion.Proofs.ValueOrder

namespace SphereMotion

open Scalar

variable {α : Type} [Scalar α]

/-- Among words of 64 bits, a whole number that is not beyond the last of fewer indices is that index. -/
theorem Nearest.toIndex_of_le {m : Int} {last : Nat} (within : m ≤ last) (few : last ≤ UInt64.size - 1) :
    (whole m).toIndex (UInt64.size - 1) = (whole m).toIndex last := by
  have bound : m.toNat ≤ last := Int.toNat_le.mpr within
  exact (Nat.min_eq_left (bound.trans few)).trans (Nat.min_eq_left bound).symm

theorem Nearest.toIndex_le (rounded : Nearest) (last : Nat) : rounded.toIndex last ≤ last := by
  cases rounded with
  | whole m => exact Nat.min_le_right _ _
  | above => exact le_rfl
  | undefined | below => exact Nat.zero_le _

section Clamp

variable [RealValued α] [LawfulOrder α] {low high : α} {a b : ℝ}

/-- What is limited to a range lies in it, if it is defined. -/
theorem Scalar.value_clamp (x : α) (isLow : RealValued.value low = .real a)
    (isHigh : RealValued.value high = .real b) (range : a ≤ b) :
    RealValued.value (clamp x low high) = .undefined ∨
      ∃ r, RealValued.value (clamp x low high) = .real r ∧ a ≤ r ∧ r ≤ b := by
  rw [clamp]
  by_cases less : x < low
  · rw [if_pos less]
    exact .inr ⟨a, isLow, le_rfl, range⟩
  rw [if_neg less]
  by_cases greater : high < x
  · rw [if_pos greater]
    exact .inr ⟨b, isHigh, range, le_rfl⟩
  rw [if_neg greater]
  rw [LawfulOrder.lt_iff, isLow] at less
  rw [LawfulOrder.lt_iff, isHigh] at greater
  exact Extended.eq_undefined_or_real less greater

/-- A fraction of a number of steps is rounded to no more than all of them. -/
theorem Scalar.nearest_fraction_mul [LawfulInfinities α] (x : α) {n : Nat} (few : n ≤ 2 ^ 53) :
    nearest (clamp x 0 1 * ofInt n) = .undefined ∨
      ∃ m : Int, nearest (clamp x 0 1 * ofInt n) = .whole m ∧ m ≤ n := by
  have few' : |(n : ℤ)| ≤ 2 ^ 53 := by rw [Nat.abs_cast]; exact_mod_cast few
  have steps : RealValued.value (ofInt n : α) = .real ((n : ℤ) : ℝ) := RealValued.value_ofInt few'
  rw [RealValued.nearest_eq]
  rcases value_clamp x RealValued.value_zero RealValued.value_one zero_le_one with
    undefined | ⟨r, isReal, lower, upper⟩
  · rw [LawfulInfinities.mul_of_undefined _ undefined]
    exact .inl rfl
  have product := RealValued.mul isReal steps
  have nonneg : 0 ≤ r * n := mul_nonneg lower n.cast_nonneg
  have most : r * n ≤ n := mul_le_of_le_one_left n.cast_nonneg upper
  have bounded : (n : ℝ) < 2 ^ 1023 := by
    have few'' : (n : ℝ) ≤ 2 ^ 53 := by exact_mod_cast few
    exact few''.trans_lt (pow_lt_pow_right₀ (by norm_num) (by norm_num))
  push_cast at product
  generalize RealValued.value (clamp x 0 1 * ofInt n) = v at product
  cases product with
  | @real q rounds =>
    refine .inr ⟨halfAway q, rfl, ?_⟩
    have holds : (RealValued.arithmetic α).Holds (n : ℤ) := .of_isFloat (.intCast few')
    have reached : q ≤ n := rounds.ge_of_ge (by exact_mod_cast holds) most
    have near := (abs_le.mp (abs_halfAway_sub_le q)).2
    have below : (halfAway q : ℝ) < n + 1 := by linarith
    exact Int.lt_add_one_iff.mp (by exact_mod_cast below)
  | above _ large => exact absurd (most.trans_lt bounded) (not_lt.mpr large)
  | below _ large => exact absurd (large.trans_lt (neg_lt_zero.mpr (by positivity))) (not_lt.mpr nonneg)

end Clamp

namespace SampledTable

/-- Bisection ends inside of its range or at the end of it. -/
theorem bisect_le (holds : Nat → Bool) (start : Nat) {count : Nat} (nonempty : 0 < count) :
    bisect holds start count ≤ start + count := by
  fun_induction bisect holds start count with
  | case1 start count single found => omega
  | case2 start count single notFound => omega
  | case3 start count several found ih =>
    have := ih (by omega)
    omega
  | case4 start count several notFound ih =>
    have := ih (by omega)
    omega

/-- Bisection looks at nothing outside of its range. -/
theorem bisect_congr {holds other : Nat → Bool} {start count : Nat} (nonempty : 0 < count)
    (alike : ∀ i, start ≤ i → i < start + count → other i = holds i) :
    bisect other start count = bisect holds start count := by
  fun_induction bisect holds start count with
  | case1 start count single found => rw [bisect, if_pos single, alike start le_rfl (by omega), if_pos found]
  | case2 start count single notFound => rw [bisect, if_pos single, alike start le_rfl (by omega), if_neg notFound]
  | case3 start count several found ih =>
    rw [bisect, if_neg several, alike (start + count / 2) (by omega) (by omega), if_pos found]
    exact ih (by omega) fun i after before => alike i (by omega) (by omega)
  | case4 start count several notFound ih =>
    rw [bisect, if_neg several, alike (start + count / 2) (by omega) (by omega), if_neg notFound]
    exact ih (by omega) fun i after before => alike i after (by omega)

/-- The inputs of all samples. -/
def inputs (t : SampledTable α) : Array α := Array.ofFn fun i : Fin t.samples => t.input i

/-- The outputs of all samples. -/
def outputs (t : SampledTable α) : Array α := Array.ofFn fun i : Fin t.samples => t.output i

variable {t : SampledTable α} {i : Nat}

theorem getElem?_inputs (sampled : i < t.samples) : t.inputs[i]? = some (t.input i) := by
  rw [inputs, Array.getElem?_ofFn, dif_pos sampled]

theorem getElem?_outputs (sampled : i < t.samples) : t.outputs[i]? = some (t.output i) := by
  rw [outputs, Array.getElem?_ofFn, dif_pos sampled]

/-- The stored output at the index that is nearest to `x`, a word of 64 bits. There is none if the index lies beyond
the samples. -/
def lookup? (t : SampledTable α) (x : α) : Option α :=
  if isUndefined x then some undefined
  else
    let steps := nearest (clamp ((x - t.low) / (t.high - t.low)) 0 1 * ofInt (t.samples - 1 : Nat))
    t.outputs[steps.toIndex (UInt64.size - 1)]?

/-- The stored input whose output is nearest to `y`. There is none as soon as a sample that is asked for
on the way is not stored. -/
def inverseLookup? (t : SampledTable α) (y : α) : Option α :=
  let i := bisect (fun i => t.outputs[i]?.any fun output => output < y) 0 t.samples
  if isUndefined y then some undefined
  else if i = 0 then t.inputs[0]?
  else if i = t.samples then t.inputs[t.samples - 1]?
  else do
    let here ← t.outputs[i]?
    if here == y then t.inputs[i]?
    else
      let before ← t.outputs[i - 1]?
      if here - y < y - before then t.inputs[i]? else t.inputs[i - 1]?

theorem inverseLookup?_eq (t : SampledTable α) (y : α) : t.inverseLookup? y = some (t.inverseLookup y) := by
  have enough := t.two_le_samples
  have sameIndex : bisect (fun i => t.outputs[i]?.any fun output => output < y) 0 t.samples = t.below y := by
    refine bisect_congr (by omega) fun i _ sampled => ?_
    rw [getElem?_outputs (by omega)]
    rfl
  have within : t.below y ≤ 0 + t.samples := bisect_le _ _ (by omega)
  rw [inverseLookup?, inverseLookup, sameIndex]
  by_cases undefined : isUndefined y = true
  · rw [if_pos undefined, if_pos undefined]
  rw [if_neg undefined, if_neg undefined]
  by_cases first : t.below y = 0
  · rw [if_pos first, if_pos first, getElem?_inputs (by omega)]
  rw [if_neg first, if_neg first]
  by_cases last : t.below y = t.samples
  · rw [if_pos last, if_pos last, getElem?_inputs (by omega)]
  rw [if_neg last, if_neg last, getElem?_outputs (by omega), getElem?_outputs (by omega),
    getElem?_inputs (by omega), getElem?_inputs (by omega)]
  simp only [Option.bind_eq_bind, Option.bind_some, apply_ite some]

/-- A table of no more samples than scalars can count has the sample that is looked up for any scalar. -/
theorem lookup?_eq [RealValued α] [LawfulOrder α] [LawfulInfinities α] (t : SampledTable α)
    (few : t.samples ≤ 2 ^ 53) (x : α) : t.lookup? x = some (t.lookup x) := by
  have enough := t.two_le_samples
  have last : t.samples - 1 ≤ UInt64.size - 1 := by
    rw [UInt64.size]
    omega
  rw [lookup?, lookup]
  by_cases undefined : isUndefined x = true
  · rw [if_pos undefined, if_pos undefined]
  rw [if_neg undefined, if_neg undefined, nearestSample]
  dsimp only
  have stored (i : Nat) (within : i ≤ t.samples - 1) : t.outputs[i]? = some (t.output i) :=
    getElem?_outputs (by omega)
  rcases nearest_fraction_mul ((x - t.low) / (t.high - t.low)) (show t.samples - 1 ≤ 2 ^ 53 by omega) with
    undefined | ⟨m, rounded, within⟩
  · rw [undefined]
    exact stored 0 (Nat.zero_le _)
  · rw [rounded, Nearest.toIndex_of_le within last]
    exact stored _ (Nearest.toIndex_le _ _)

end SampledTable

end SphereMotion
