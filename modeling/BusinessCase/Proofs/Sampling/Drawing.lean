/-
BusinessCase.Proofs.Sampling.Drawing — what samplers are made of.

The samplers of this library draw numbers one after the other, and what they do
between two draws draws nothing and fails for reasons of arithmetic only. What
is so of draws and of such steps, and passes from the parts of a sampler to the
whole, is so of all of them: they say that a source has run out only where it
has nothing left to give.

  §1 Samplers — `Drawing`, and the errors of such samplers.
  §2 Sources  — `Built`, the same for a source of any kind.
  §3 Gamma    — `built_gamma`.
  §4 Bounds   — `Distribution.built_sample`.
-/
import BusinessCase.Proofs.Sampling.Draws
import BusinessCase.Proofs.Steps

namespace BusinessCase

open Scalar

/-! ## §1 Samplers -/

/-- A sampler for sources of any kind. -/
abbrev AnySampler (α ε β : Type) : Type 1 :=
  (σ : Type) → [UniformSource σ α] → Sampler σ ε β

namespace Sampler

variable {σ α β γ : Type}

/-- The error is neither about the source nor about the order of bounds. -/
def IsNumeric : SamplingError α → Prop
  | .arithmetic _ | .shapeNotPositive _ => True
  | .exhausted | .boundsOutOfOrder _ => False

/-- Made of draws and of steps between them. -/
inductive Drawing [UniformSource σ α] : {β : Type} → Sampler σ (SamplingError α) β → Prop where
  | uniform : Drawing uniform
  | lift {β : Type} {outcome : Except (SamplingError α) β} (fails : FailsOnly IsNumeric outcome) :
    Drawing (lift outcome)
  | andThen {β γ : Type} {m : Sampler σ (SamplingError α) β}
    {f : β → Sampler σ (SamplingError α) γ} (first : Drawing m) (second : ∀ b, Drawing (f b)) :
    Drawing (andThen m f)
  | untilAccepted {β : Type} {round : Sampler σ (SamplingError α) (Option β)}
    (shrinks : Shrinking round) (each : Drawing round) : Drawing (untilAccepted round shrinks)

/-- If the sampler fails, then with such an error. -/
def Only {ε : Type} (allowed : ε → Prop) (m : Sampler σ ε β) : Prop :=
  ∀ s, FailsOnly allowed (m s).1

/-- The error is not about the order of bounds. -/
def IsOther : SamplingError α → Prop
  | .boundsOutOfOrder _ => False
  | .exhausted | .arithmetic _ | .shapeNotPositive _ => True

variable [UniformSource σ α]

/-- The sampler ended for want of numbers, and the source has none left. -/
def RanOut (outcome : Except (SamplingError α) β × σ) : Prop :=
  outcome.1 = .error .exhausted ∧ UniformSource.draw? outcome.2 = none

/-- The sampler says that the source has run out only where it has. -/
def Dries (m : Sampler σ (SamplingError α) β) : Prop :=
  ∀ s, (m s).1 = .error .exhausted → UniformSource.draw? (m s).2 = none

variable {m : Sampler σ (SamplingError α) β}

theorem IsNumeric.isOther {e : SamplingError α} (isNumeric : IsNumeric e) : IsOther e := by
  cases e <;> trivial

theorem Drawing.only (drawing : Drawing m) : Only IsOther m := by
  induction drawing with
  | uniform =>
    intro s
    unfold Sampler.uniform
    split
    · exact FailsOnly.ok _
    · exact FailsOnly.error trivial
  | lift fails => exact fun s e failed => (fails e failed).isOther
  | andThen _ _ first second =>
    intro s
    unfold Sampler.andThen
    split
    · next b s' drawn => exact second b s'
    · next e s' drawn => exact FailsOnly.error (first s e (by rw [drawn]))
  | @untilAccepted _ round shrinks _ each =>
    intro s
    fun_induction Sampler.untilAccepted round shrinks s with
    | case1 s e s' drawn => exact FailsOnly.error (each s e (by rw [drawn]))
    | case2 s b s' drawn => exact FailsOnly.ok b
    | case3 s s' drawn ih => exact ih

/-- **A source that is said to have run out has nothing left.** -/
theorem Drawing.dries (drawing : Drawing m) : Dries m := by
  induction drawing with
  | uniform =>
    intro s failed
    unfold Sampler.uniform at failed ⊢
    split at failed
    · cases failed
    · next none => exact none
  | lift fails => exact fun s failed => (fails _ failed).elim
  | andThen _ _ first second =>
    intro s failed
    unfold Sampler.andThen at failed ⊢
    split at failed
    · next b s' drawn => exact second b s' failed
    · next e s' drawn =>
      have dry := first s (by rw [drawn]; exact congrArg Except.error (Except.error.inj failed))
      rwa [drawn] at dry
  | @untilAccepted _ round shrinks _ each =>
    intro s failed
    fun_induction Sampler.untilAccepted round shrinks s with
    | case1 s e s' drawn =>
      have dry := each s (by rw [drawn]; exact congrArg Except.error (Except.error.inj failed))
      rwa [drawn] at dry
    | case2 s b s' drawn => cases failed
    | case3 s s' drawn ih => exact ih failed

/-! ## §2 Sources -/

/-- Made of draws and of steps between them, in the same way for every source. -/
inductive Built {α : Type} : {β : Type} → AnySampler α (SamplingError α) β → Prop where
  | uniform : Built fun _ _ => uniform
  | lift {β : Type} {outcome : Except (SamplingError α) β} (fails : FailsOnly IsNumeric outcome) :
    Built fun _ _ => lift outcome
  | andThen {β γ : Type} {m : AnySampler α (SamplingError α) β}
    {f : β → AnySampler α (SamplingError α) γ} (first : Built m) (second : ∀ b, Built (f b)) :
    Built fun σ _ => andThen (m σ) fun b => f b σ
  | untilAccepted {β : Type} {round : AnySampler α (SamplingError α) (Option β)}
    (shrinks : ∀ (σ : Type) [UniformSource σ α], Shrinking (round σ)) (each : Built round) :
    Built fun σ _ => untilAccepted (round σ) (shrinks σ)

theorem Built.drawing {m : AnySampler α (SamplingError α) β} (built : Built m) (σ : Type)
    [UniformSource σ α] : Drawing (m σ) := by
  induction built with
  | uniform => exact .uniform
  | lift fails => exact .lift fails
  | andThen _ _ first second => exact .andThen first second
  | untilAccepted shrinks _ each => exact .untilAccepted (shrinks σ) each

theorem built_done (b : β) : Built (fun _ _ => done b : AnySampler α (SamplingError α) β) :=
  .lift (FailsOnly.ok b)

theorem built_checked (outcome : Except ArithmeticError β) :
    Built (fun _ _ => checked outcome : AnySampler α (SamplingError α) β) :=
  .lift (FailsOnly.mapError fun _ _ => trivial)

/-! ## §3 Gamma -/

variable [Scalar α]

theorem built_openUniform : Built (fun _ _ => openUniform : AnySampler α (SamplingError α) α) :=
  .andThen .uniform fun _ => built_done _

theorem built_gammaRound (d c : α) :
    Built (fun _ _ => gammaRound d c : AnySampler α (SamplingError α) (Option α)) := by
  have deviate : Built (fun _ _ => standardNormal : AnySampler α (SamplingError α) α) :=
    .andThen built_openUniform fun _ => .andThen .uniform fun _ => built_checked _
  refine .andThen deviate fun x => ?_
  dsimp only
  split
  · exact built_done _
  · exact .andThen built_openUniform fun u =>
      .andThen (built_checked _) fun _ => built_done _

theorem built_gammaLarge (shape : α) :
    Built (fun _ _ => gammaLarge shape : AnySampler α (SamplingError α) α) :=
  .andThen (built_checked _) fun _ => .andThen (built_checked _) fun _ =>
    .untilAccepted (fun _ _ => shrinking_gammaRound _ _) (built_gammaRound _ _)

theorem built_gamma (shape : α) :
    Built (fun _ _ => gamma shape : AnySampler α (SamplingError α) α) := by
  unfold gamma
  split
  · exact .lift (FailsOnly.error trivial)
  · split
    · exact .andThen built_openUniform fun _ => .andThen (built_checked _) fun _ =>
        .andThen (built_gammaLarge _) fun _ => built_checked _
    · exact built_gammaLarge shape

theorem drawing_gamma (shape : α) : Drawing (gamma shape : Sampler σ (SamplingError α) α) :=
  (built_gamma shape).drawing σ

end Sampler

/-! ## §4 Bounds -/

namespace Distribution

variable {σ α : Type} [UniformSource σ α] [Scalar α] {b : Distribution α}

/-- Bounds in order are sampled by drawing. -/
theorem built_sample (ordered : (le b.low b.mode && le b.mode b.high) = true) :
    Sampler.Built (fun _ _ => b.sample : AnySampler α (SamplingError α) α) := by
  simp only [sample, ordered, Bool.not_true, Bool.false_eq_true, if_false]
  split
  · exact Sampler.built_done _
  · exact .andThen (Sampler.built_checked _) fun _ =>
      .andThen (Sampler.built_gamma _) fun _ =>
        .andThen (Sampler.built_gamma _) fun _ => Sampler.built_checked _

theorem drawing_sample (ordered : (le b.low b.mode && le b.mode b.high) = true) :
    Sampler.Drawing (b.sample : Sampler σ (SamplingError α) α) :=
  (built_sample ordered).drawing σ

end Distribution

end BusinessCase
