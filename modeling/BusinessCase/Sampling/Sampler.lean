/-
BusinessCase.Sampling.Sampler — computations that draw uniform numbers.

A sampler takes the state of a source to an outcome and the state after it;
the state is there also where the outcome is an error. `untilAccepted` repeats
a round until it accepts, which ends because a round that draws leaves fewer
draws.

  §1 Samplers  — `Sampler`, its sequencing, lifting an outcome.
  §2 Drawing   — `uniform`, `openUniform`.
  §3 Rejection — `Shrinking`, `untilAccepted`.
-/
import BusinessCase.Random.Source
import BusinessCase.Scalar
import BusinessCase.Workbook.Basic

namespace BusinessCase

/-! ## §1 Samplers -/

/-- Why there is no sample. -/
inductive SamplingError (α : Type) where
  | exhausted
  | arithmetic (error : ArithmeticError)
  /-- A gamma distribution has a shape above zero. -/
  | shapeNotPositive (shape : α)
  /-- The bounds of an estimate are in increasing order. -/
  | boundsOutOfOrder (bounds : Distribution α)

/-- A computation that draws from a source with states of type `σ`. -/
abbrev Sampler (σ ε β : Type) : Type := σ → Except ε β × σ

namespace Sampler

variable {σ ε β γ : Type}

/-- Draws nothing. -/
def done (b : β) : Sampler σ ε β := fun s => (.ok b, s)

/-- One sampler after the other; an error ends both. -/
def andThen (m : Sampler σ ε β) (f : β → Sampler σ ε γ) : Sampler σ ε γ := fun s =>
  match m s with
  | (.ok b, s) => f b s
  | (.error e, s) => (.error e, s)

/-- An outcome that needs no drawing. -/
def lift (outcome : Except ε β) : Sampler σ ε β := fun s => (outcome, s)

/-! ## §2 Drawing -/

variable {α : Type} [UniformSource σ α]

/-- One uniform number from zero to below one. -/
def uniform : Sampler σ (SamplingError α) α := fun s =>
  match UniformSource.draw? s with
  | some (u, s) => (.ok u, s)
  | none => (.error .exhausted, s)

/-- One uniform number from above zero to one, so that it has a logarithm. -/
def openUniform [Scalar α] : Sampler σ (SamplingError α) α :=
  andThen uniform fun u => done (Scalar.nat 1 - u)

/-- An arithmetic step inside a sampler. -/
def checked (outcome : Except ArithmeticError β) : Sampler σ (SamplingError α) β :=
  lift (outcome.mapError .arithmetic)

/-! ## §3 Rejection -/

/-- No outcome leaves more draws than there were. -/
def NonIncreasing (m : Sampler σ ε β) : Prop :=
  ∀ s, UniformSource.remaining (m s).2 ≤ UniformSource.remaining s

/-- An outcome that is no error leaves fewer draws. -/
def Shrinking (m : Sampler σ ε β) : Prop :=
  ∀ s b, (m s).1 = .ok b → UniformSource.remaining (m s).2 < UniformSource.remaining s

theorem nonIncreasing_done (b : β) : NonIncreasing (done b : Sampler σ ε β) :=
  fun _ => Nat.le_refl _

theorem nonIncreasing_lift (outcome : Except ε β) :
    NonIncreasing (lift outcome : Sampler σ ε β) :=
  fun _ => Nat.le_refl _

theorem nonIncreasing_andThen {m : Sampler σ ε β} {f : β → Sampler σ ε γ}
    (first : NonIncreasing m) (second : ∀ b, NonIncreasing (f b)) :
    NonIncreasing (andThen m f) := by
  intro s
  have le := first s
  unfold andThen
  split <;> rename_i outcome
  · rw [outcome] at le
    exact Nat.le_trans (second _ _) le
  · rw [outcome] at le
    exact le

theorem shrinking_andThen {m : Sampler σ ε β} {f : β → Sampler σ ε γ}
    (first : Shrinking m) (second : ∀ b, NonIncreasing (f b)) : Shrinking (andThen m f) := by
  intro s c accepted
  unfold andThen at accepted ⊢
  split at accepted
  · rename_i b s' outcome
    have lt := first s b (by rw [outcome])
    rw [outcome] at lt
    exact Nat.lt_of_le_of_lt (second _ _) lt
  · cases accepted

theorem nonIncreasing_uniform : NonIncreasing (uniform : Sampler σ (SamplingError α) α) := by
  intro s
  unfold uniform
  split
  · rename_i drawn
    exact Nat.le_of_lt (UniformSource.remaining_lt drawn)
  · exact Nat.le_refl _

theorem shrinking_uniform : Shrinking (uniform : Sampler σ (SamplingError α) α) := by
  intro s b accepted
  unfold uniform at accepted ⊢
  split at accepted
  · rename_i drawn
    exact UniformSource.remaining_lt drawn
  · cases accepted

theorem nonIncreasing_openUniform [Scalar α] :
    NonIncreasing (openUniform : Sampler σ (SamplingError α) α) :=
  nonIncreasing_andThen nonIncreasing_uniform fun _ => nonIncreasing_done _

theorem shrinking_openUniform [Scalar α] :
    Shrinking (openUniform : Sampler σ (SamplingError α) α) :=
  shrinking_andThen shrinking_uniform fun _ => nonIncreasing_done _

/-- Repeats a round until it accepts a value. -/
def untilAccepted (round : Sampler σ ε (Option β)) (shrinks : Shrinking round) (s : σ) :
    Except ε β × σ :=
  match _outcome : round s with
  | (.error e, s) => (.error e, s)
  | (.ok (some b), s) => (.ok b, s)
  | (.ok none, s) => untilAccepted round shrinks s
termination_by UniformSource.remaining s
decreasing_by
  have lt := shrinks _ none (by rw [_outcome])
  rw [_outcome] at lt
  exact lt

end Sampler

end BusinessCase
