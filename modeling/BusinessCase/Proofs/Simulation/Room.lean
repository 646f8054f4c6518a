/-
BusinessCase.Proofs.Simulation.Room — the same trials on another stack.

How much of the stack is taken decides whether a formula has room, and nothing
else. So a trial that comes to an end on two stacks comes to the same end on
both, and one that ends on a stack ends on every other that has room for the
formulas of its plan.

  §1 Formulas — `Plan.hasRoom`, and the results of formulas.
  §2 Trials   — `trial_above_eq`, `trial_of_hasRoom`.
-/
import BusinessCase.Proofs.Formula.Evaluation
import BusinessCase.Proofs.Table
import BusinessCase.Simulation.Trial

namespace BusinessCase

open Formula Scalar

variable {σ α : Type} [UniformSource σ α] [Scalar α] {plan : Plan α} {t t' : Nat}

/-! ## §1 Formulas -/

/-- Is there room for the formulas of the plan in a trial? -/
def Plan.hasRoom (plan : Plan α) : Bool :=
  plan.formulas.all fun formula => formula.2.fits (plan.taken + 2)

section Formulas

variable {β : Type} {callers : Nat} {cell : β → Cell α} {entry : α → β} {values table : Table β}
  {ids : List String}

omit [UniformSource σ α] in
/-- Evaluations that come to an end on two stacks give the same results. -/
theorem evaluateFrom_above_eq {table' : Table β}
    (done : (plan.above t).evaluateFrom callers cell entry values ids = .ok table)
    (done' : (plan.above t').evaluateFrom callers cell entry values ids = .ok table') :
    table = table' := by
  induction ids generalizing values with
  | nil => exact Except.ok.inj (done.symm.trans done')
  | cons id rest ih =>
    simp only [Plan.evaluateFrom, Plan.above] at done done'
    cases found : plan.formulas.find? id with
    | none =>
      simp only [found] at done done'
      exact ih done done'
    | some e =>
      simp only [found] at done done'
      split at done
      · cases done
      · next x value =>
        split at done'
        · cases done'
        · next x' value' =>
          cases (Expr.eval_of_outcome value).symm.trans (Expr.eval_of_outcome value')
          exact ih done done'

omit [UniformSource σ α] in
/-- An evaluation that comes to an end does so wherever its formulas have room. -/
theorem evaluateFrom_of_hasRoom (room : (plan.above t').hasRoom)
    (done : (plan.above t).evaluateFrom 2 cell entry values ids = .ok table) :
    (plan.above t').evaluateFrom 2 cell entry values ids = .ok table := by
  induction ids generalizing values with
  | nil => exact done
  | cons id rest ih =>
    simp only [Plan.evaluateFrom, Plan.above] at done ⊢
    cases found : plan.formulas.find? id with
    | none =>
      simp only [found] at done ⊢
      exact ih done
    | some e =>
      simp only [found] at done ⊢
      split at done
      · cases done
      · next x value =>
        have fits : e.fits (t' + 2) := List.all_eq_true.mp room _ (Table.mem_of_find? found)
        rw [Expr.outcome_of_fits fits, Expr.eval_of_outcome value]
        exact ih done

end Formulas

/-! ## §2 Trials -/

omit [UniformSource σ α] in
theorem settle_above_eq {sampled : Table α} {trial trial' : Trial α}
    (done : (plan.above t).settle sampled = .ok trial)
    (done' : (plan.above t').settle sampled = .ok trial') : trial = trial' := by
  have rolled (t : Nat) (values : Table α) :
      (plan.above t).rollUp sampled values = plan.rollUp sampled values := rfl
  unfold Plan.settle at done done'
  split at done
  · cases done
  · next values completed =>
    split at done'
    · cases done'
    · next values' completed' =>
      cases evaluateFrom_above_eq completed completed'
      rw [rolled] at done done'
      exact Except.ok.inj (done.symm.trans done')

omit [UniformSource σ α] in
theorem settle_of_hasRoom (room : (plan.above t').hasRoom) {sampled : Table α} {trial : Trial α}
    (done : (plan.above t).settle sampled = .ok trial) :
    (plan.above t').settle sampled = .ok trial := by
  unfold Plan.settle at done ⊢
  split at done
  · cases done
  · next values completed =>
    have same : (plan.above t').complete sampled = .ok values :=
      evaluateFrom_of_hasRoom room completed
    rw [same]
    exact done

/-- A trial leaves its source in the same state on every stack. -/
theorem trial_above_snd (s : σ) : ((plan.above t).trial s).2 = (plan.trial s).2 := by
  have inputs : (plan.above t).inputs = plan.inputs := rfl
  rw [Plan.trial, Plan.trial, inputs]
  split <;> rfl

/-- A trial that ends has settled what it sampled. -/
theorem settle_of_trial {s : σ} {trial : Trial α} (done : ((plan.above t).trial s).1 = .ok trial) :
    ∃ sampled, (plan.above t).settle sampled = .ok trial ∧
      ∀ t', ((plan.above t').trial s).1 = (plan.above t').settle sampled := by
  have inputs (t : Nat) : (plan.above t).inputs = plan.inputs := rfl
  unfold Plan.trial at done ⊢
  simp only [inputs] at done ⊢
  split at done
  · cases done
  · exact ⟨_, done, fun t' => rfl⟩

/-- **Trials that come to an end on two stacks come to the same end.** -/
theorem trial_above_eq {s : σ} {trial trial' : Trial α}
    (done : ((plan.above t).trial s).1 = .ok trial)
    (done' : ((plan.above t').trial s).1 = .ok trial') : trial = trial' := by
  obtain ⟨sampled, settled, others⟩ := settle_of_trial done
  exact settle_above_eq settled ((others t').symm.trans done')

/-- **A trial that comes to an end does so wherever the formulas have room.** -/
theorem trial_of_hasRoom (room : (plan.above t').hasRoom) {s : σ} {trial : Trial α}
    (done : ((plan.above t).trial s).1 = .ok trial) : ((plan.above t').trial s).1 = .ok trial := by
  obtain ⟨sampled, settled, others⟩ := settle_of_trial done
  exact (others t').trans (settle_of_hasRoom room settled)

end BusinessCase
