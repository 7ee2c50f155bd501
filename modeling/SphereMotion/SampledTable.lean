import SphereMotion.Fault
import SphereMotion.Scalar

namespace SphereMotion

open Scalar

/-- A function sampled at evenly spaced inputs over the range from `low` to `high`, both ends included. It
is read in either direction by the nearest sample, without interpolation. -/
structure SampledTable (α : Type) [Scalar α] where
  low : α
  high : α
  samples : Nat
  function : α → α
  two_le_samples : 2 ≤ samples
  low_lt_high : low < high

namespace SampledTable

variable {α : Type} [Scalar α]

/-- Samples `function`; the number of samples is checked before the range. -/
def sample (low high : α) (samples : Nat) (function : α → α) : Except Fault (SampledTable α) :=
  if enough : 2 ≤ samples then
    if range : low < high then .ok ⟨low, high, samples, function, enough, range⟩ else .error .emptyRange
  else .error (.tooFewSamples samples)

def step (t : SampledTable α) : α := (t.high - t.low) / ofInt (t.samples - 1 : Nat)

def input (t : SampledTable α) (i : Nat) : α := t.low + ofInt i * t.step

def output (t : SampledTable α) (i : Nat) : α := t.function (t.input i)

/-- The sample whose input is nearest to `x`, the higher one on a tie. -/
def nearestSample (t : SampledTable α) (x : α) : Nat :=
  let fraction := clamp ((x - t.low) / (t.high - t.low)) 0 1
  (nearest (fraction * ofInt (t.samples - 1 : Nat))).toIndex (t.samples - 1)

/-- The output of the sample nearest to `x`, which is first limited to the range. -/
def lookup (t : SampledTable α) (x : α) : α :=
  if isUndefined x then undefined else t.output (t.nearestSample x)

/-- The end of the run of indices from `start` on, at most `count` of them, at which `holds` is true,
by bisection. -/
def bisect (holds : Nat → Bool) (start count : Nat) : Nat :=
  if count ≤ 1 then
    if holds start then start + 1 else start
  else if holds (start + count / 2) then bisect holds (start + count / 2) (count - count / 2)
  else bisect holds start (count - count / 2)
termination_by count

/-- The number of samples with an output below `y`, for outputs that do not decrease. -/
def below (t : SampledTable α) (y : α) : Nat := bisect (fun i => t.output i < y) 0 t.samples

/-- The input of the sample whose output is nearest to `y`, the lower one on a tie. Beyond the outputs it is
the first or the last input. -/
def inverseLookup (t : SampledTable α) (y : α) : α :=
  let i := t.below y
  if isUndefined y then undefined
  else if i = 0 then t.input 0
  else if i = t.samples then t.input (t.samples - 1)
  else if t.output i == y then t.input i
  else if t.output i - y < y - t.output (i - 1) then t.input i
  else t.input (i - 1)

end SampledTable

end SphereMotion
