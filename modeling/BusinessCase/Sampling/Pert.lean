/-
BusinessCase.Sampling.Pert — samples of a three-point estimate.

An estimate stands for a beta distribution between its bounds whose mean
counts the most likely value four times. The share of one gamma sample in the
sum of two is a beta sample.
-/
import BusinessCase.Sampling.Gamma

namespace BusinessCase

open Scalar

variable {σ α : Type} [UniformSource σ α] [Scalar α]

namespace Distribution

/-- The two shapes of the beta distribution of an estimate. -/
def shapes (b : Distribution α) : Except ArithmeticError (α × α) := do
  let span := b.high - b.low
  let below ← divide (nat 4 * (b.mode - b.low)) span
  let above ← divide (nat 4 * (b.high - b.mode)) span
  .ok (nat 1 + below, nat 1 + above)

def mean (b : Distribution α) : α := (b.low + nat 4 * b.mode + b.high) / (nat 4 + nat 2)

/-- The point between the bounds that divides the span as `x` and `y` divide their sum. -/
def between (b : Distribution α) (x y : α) : Except ArithmeticError α := do
  let share ← divide x (x + y)
  .ok (b.low + share * (b.high - b.low))

/-- One sample of an estimate; one without span is drawn from nothing. -/
def sample (b : Distribution α) : Sampler σ (SamplingError α) α :=
  if !(le b.low b.mode && le b.mode b.high) then Sampler.lift (.error (.boundsOutOfOrder b))
  else if eq b.low b.high then Sampler.done b.low
  else
    Sampler.andThen (Sampler.checked b.shapes) fun shapes =>
      Sampler.andThen (Sampler.gamma shapes.1) fun x =>
        Sampler.andThen (Sampler.gamma shapes.2) fun y => Sampler.checked (b.between x y)

end Distribution

end BusinessCase
