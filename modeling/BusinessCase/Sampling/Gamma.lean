/-
BusinessCase.Sampling.Gamma — normal and gamma samples.

A normal sample takes two uniform numbers. A gamma sample of shape one or more
takes rounds of a normal and a uniform number until one is accepted; a smaller
shape draws for the shape above it and scales the result down.
-/
import BusinessCase.Sampling.Sampler

namespace BusinessCase.Sampler

open Scalar

variable {σ α : Type} [UniformSource σ α] [Scalar α]

/-- The normal deviate of two uniform numbers: a distance from the first and an angle from the
second. -/
def normalDeviate (u1 u2 : α) : Except ArithmeticError α := do
  let size ← logarithm u1
  let distance ← root (-(nat 2) * size)
  let direction ← cosine (nat 2 * pi * u2)
  .ok (distance * direction)

def standardNormal : Sampler σ (SamplingError α) α :=
  andThen openUniform fun u1 => andThen uniform fun u2 => checked (normalDeviate u1 u2)

theorem shrinking_standardNormal :
    Shrinking (standardNormal : Sampler σ (SamplingError α) α) :=
  shrinking_andThen shrinking_openUniform fun _ =>
    nonIncreasing_andThen nonIncreasing_uniform fun _ => nonIncreasing_lift _

/-- Is the candidate `v`, made from the deviate `x`, accepted at the level `u`? The quick test
comes first; only where it fails are logarithms taken. -/
def accepts (d x v u : α) : Except ArithmeticError Bool := do
  let fourth ← powerNat x 4
  if lt u (nat 1 - decimal 331 4 * fourth) then .ok true
  else
    let level ← logarithm u
    let size ← logarithm v
    .ok (lt level (decimal 5 1 * x * x + d * (nat 1 - v + size)))

/-- One round: a candidate, unless it is rejected. -/
def gammaRound (d c : α) : Sampler σ (SamplingError α) (Option α) :=
  andThen standardNormal fun x =>
    let base := nat 1 + c * x
    if le base (nat 0) then done none
    else
      let v := base * base * base
      andThen openUniform fun u =>
        andThen (checked (accepts d x v u)) fun accepted =>
          done (if accepted then some (d * v) else none)

theorem shrinking_gammaRound (d c : α) :
    Shrinking (gammaRound d c : Sampler σ (SamplingError α) (Option α)) := by
  refine shrinking_andThen shrinking_standardNormal fun x => ?_
  dsimp only
  split
  · exact nonIncreasing_done _
  · exact nonIncreasing_andThen nonIncreasing_openUniform fun u =>
      nonIncreasing_andThen (nonIncreasing_lift _) fun _ => nonIncreasing_done _

/-- A gamma sample of a shape of at least one. -/
def gammaLarge (shape : α) : Sampler σ (SamplingError α) α :=
  let d := shape - nat 1 / nat 3
  andThen (checked (root (nat 9 * d))) fun spread =>
    andThen (checked (divide (nat 1) spread)) fun c =>
      untilAccepted (gammaRound d c) (shrinking_gammaRound d c)

/-- The factor by which a sample of a shape below one is smaller than one of the shape above;
nothing where it is no real number. -/
def boost (shape u : α) : Except ArithmeticError (Option α) := do
  let exponent ← divide (nat 1) shape
  match powerOf u exponent with
  | .ok factor => .ok (some factor)
  | .error .notReal => .ok none
  | .error e => .error e

/-- A sample scaled down. A factor that is no real number is an error only here, when all
numbers have been drawn. -/
def scaled (sample : α) : Option α → Except ArithmeticError α
  | some factor => .ok (sample * factor)
  | none => .error .notReal

def gamma (shape : α) : Sampler σ (SamplingError α) α :=
  if le shape (nat 0) then lift (.error (.shapeNotPositive shape))
  else if lt shape (nat 1) then
    andThen openUniform fun u =>
      andThen (checked (boost shape u)) fun factor =>
        andThen (gammaLarge (shape + nat 1)) fun sample => checked (scaled sample factor)
  else gammaLarge shape

end BusinessCase.Sampler
