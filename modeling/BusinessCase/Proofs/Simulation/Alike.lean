/-
BusinessCase.Proofs.Simulation.Alike — two plans whose trials look alike.

If all that is looked at in a trial is the same for two plans, whatever the
source, then so it is for their runs: the same trials fail, the same looks are
made at the token, and each batch leaves its source in the same state.

  §1 Results — `Alike`, results that look the same.
  §2 Batches — batches of trials that are alike.
  §3 Runs    — `spreadTrials_alike`.
-/
import BusinessCase.Proofs.Simulation.Rows
import BusinessCase.Simulation.Workers
import Mathlib.Data.List.Forall2

namespace BusinessCase

/-! ## §1 Results -/

section Results

variable {ε β γ δ : Type} {f : β → γ}

/-- What is looked at in two results is the same, and so is what comes with them. -/
def Alike (f : β → γ) (x y : Except ε β × δ) : Prop := (x.1.map f, x.2) = (y.1.map f, y.2)

theorem Alike.refl (x : Except ε β × δ) : Alike f x x := rfl

theorem alike_ok {b c : β} (same : f b = f c) (left : δ) :
    Alike f ((.ok b, left) : Except ε β × δ) (.ok c, left) :=
  congrArg (fun seen => ((.ok seen, left) : Except ε γ × δ)) same

/-- Results that are alike fail in the same way, or look the same. -/
theorem Alike.cases {x y : Except ε β × δ} (alike : Alike f x y) :
    (∃ e left, x = (.error e, left) ∧ y = (.error e, left)) ∨
      ∃ b c left, x = (.ok b, left) ∧ y = (.ok c, left) ∧ f b = f c := by
  obtain ⟨results, lefts⟩ := Prod.mk.inj alike
  obtain ⟨x, left⟩ := x
  obtain ⟨y, left'⟩ := y
  cases lefts
  cases x with
  | error e =>
    cases y with
    | error e' =>
      cases results
      exact .inl ⟨e, left, rfl, rfl⟩
    | ok c => cases results
  | ok b =>
    cases y with
    | error e' => cases results
    | ok c => exact .inr ⟨b, c, left, rfl, rfl, Except.ok.inj results⟩

end Results

variable {σ α γ : Type} [UniformSource σ α] [Scalar α] {plan plan' : Plan α} {f : Trial α → γ}

/-! ## §2 Batches -/

/-- Batches are alike where their trials are. -/
theorem batchFrom_alike (alike : ∀ s : σ, Alike f (plan.trial s) (plan'.trial s))
    (signal : Option Signal) (interval : Interval) (count i : Nat) (s : σ) (looks : Nat) :
    Alike (List.map f) (batchFrom plan signal interval count i s looks)
      (batchFrom plan' signal interval count i s looks) := by
  induction count generalizing i s looks with
  | zero => exact .refl _
  | succ count ih =>
    simp only [batchFrom]
    rcases (lookAt signal interval i looks : Except (RunError α) Unit × Nat) with ⟨_ | _, looks⟩
    · exact .refl _
    · rcases (alike s).cases with ⟨e, s', first, first'⟩ | ⟨t, t', s', first, first', same⟩
      · simp only [first, first']
        exact .refl _
      · simp only [first, first']
        rcases (ih (i + 1) s' looks).cases with
          ⟨e, left, rest, rest'⟩ | ⟨ts, ts', left, rest, rest', others⟩
        · simp only [rest, rest']
          exact .refl _
        · simp only [rest, rest']
          exact alike_ok (by rw [List.map_cons, List.map_cons, same, others]) left

theorem inlineFrom_alike (alike : ∀ s : σ, Alike f (plan.trial s) (plan'.trial s))
    (start : Nat → σ) (signal : Option Signal) (interval : Interval) (i : Nat) (sizes : List Nat)
    (looks : Nat) :
    Alike (List.map f) (inlineFrom plan start signal interval i sizes looks)
      (inlineFrom plan' start signal interval i sizes looks) := by
  induction sizes generalizing i looks with
  | nil => exact .refl _
  | cons count rest ih =>
    simp only [inlineFrom]
    rcases (look signal looks : Except (RunError α) Unit × Nat) with ⟨_ | _, looks⟩
    · exact .refl _
    · rcases (batchFrom_alike alike signal interval count 0 (start i) looks).cases with
        ⟨e, left, batch, batch'⟩ | ⟨ts, ts', left, batch, batch', same⟩
      · simp only [runBatch, batch, batch']
        exact .refl _
      · simp only [runBatch, batch, batch']
        rcases (ih (i + 1) left).cases with
          ⟨e, left, others, others'⟩ | ⟨us, us', left, others, others', later⟩
        · simp only [others, others']
          exact .refl _
        · simp only [others, others']
          exact alike_ok (by rw [List.map_append, List.map_append, same, later]) left

omit [Scalar α] in
/-- The results of batches are put together one after the other. -/
theorem gather_cons (first : Except (RunError α) (List (Trial α)) × Nat)
    (rest : List (Except (RunError α) (List (Trial α)) × Nat)) (looks : Nat) :
    gather (first :: rest) looks =
      (first.1.bind fun trials => (gather rest (looks + first.2)).1.map (trials ++ ·),
        (gather rest (looks + first.2)).2) := by
  rcases first with ⟨_ | trials, count⟩
  · rfl
  · simp only [gather, List.mapM_cons, List.foldl_cons]
    cases rest.mapM Prod.fst <;> rfl

omit [Scalar α] in
/-- Results of batches that are alike one by one are alike when they are put together. -/
theorem gather_alike {results results' : List (Except (RunError α) (List (Trial α)) × Nat)}
    (alike : List.Forall₂ (Alike (List.map f)) results results') (looks : Nat) :
    Alike (List.map f) (gather results looks) (gather results' looks) := by
  induction alike generalizing looks with
  | nil => exact .refl _
  | cons first _ ih =>
    rw [gather_cons, gather_cons]
    rcases first.cases with ⟨e, count, rfl, rfl⟩ | ⟨ts, ts', count, rfl, rfl, same⟩
    · have left := (Prod.mk.inj (ih (looks + count))).2
      exact congrArg (fun left => ((.error e, left) : Except (RunError α) (List γ) × Nat)) left
    · rcases (ih (looks + count)).cases with
        ⟨e, left, rest, rest'⟩ | ⟨us, us', left, rest, rest', later⟩
      · simp only [rest, rest']
        exact .refl _
      · simp only [rest, rest']
        exact alike_ok (by rw [List.map_append, List.map_append, same, later]) left

theorem runPooled_alike (alike : ∀ s : σ, Alike f (plan.trial s) (plan'.trial s))
    (start : Nat → σ) (signal : Option Signal) (interval : Interval) (sizes : List Nat)
    (looks : Nat) :
    Alike (List.map f)
      (runPooled plan start signal interval sizes (List.range sizes.length) looks)
      (runPooled plan' start signal interval sizes (List.range sizes.length) looks) := by
  have all : ∀ i < sizes.length, i ∈ List.range sizes.length :=
    fun i inside => List.mem_range.mpr inside
  rw [runPooled, runPooled, Pool.run_eq all, Pool.run_eq all]
  refine gather_alike ?_ looks
  rw [List.forall₂_map_left_iff, List.forall₂_map_right_iff, List.forall₂_same]
  exact fun i _ => batchFrom_alike alike signal interval _ 0 (start i) 0

/-! ## §3 Runs -/

omit [Scalar α] in
/-- A run looks at its token before and after its batches, and at nothing but their number. -/
theorem runAround_alike {batches batches' : Step α (List (Trial α))}
    (alike : ∀ looks, Alike (List.map f) (batches looks) (batches' looks)) (signal : Option Signal)
    (looks : Nat) :
    Alike (List.map f) (runAround signal batches looks) (runAround signal batches' looks) := by
  simp only [runAround, Step.andThen]
  rcases (look signal looks : Except (RunError α) Unit × Nat) with ⟨_ | _, looks⟩
  · exact .refl _
  · rcases (alike looks).cases with ⟨e, left, ran, ran'⟩ | ⟨ts, ts', left, ran, ran', same⟩
    · simp only [ran, ran']
      exact .refl _
    · have empty : ts.isEmpty = ts'.isEmpty := by
        rw [← List.isEmpty_map (f := f), same, List.isEmpty_map]
      simp only [ran, ran', empty]
      rcases (look signal left : Except (RunError α) Unit × Nat) with ⟨_ | _, left⟩
      · exact .refl _
      · dsimp only
        split
        · exact .refl _
        · exact alike_ok same left

/-- **Plans whose trials are alike on every stack have runs that are alike**, if as much of the stack
is taken for both, and both can be sent to workers or neither. -/
theorem spreadTrials_alike
    (alike : ∀ t (s : σ), Alike f ((plan.above t).trial s) ((plan'.above t).trial s))
    (taken : plan.taken = plan'.taken)
    (sendable : ∀ room, plan.isSendable room = plan'.isSendable room) (start : Nat → σ)
    (signal : Option Signal) (schedule : Schedule) (iterations looks : Nat) :
    Alike (List.map f) (spreadTrials plan start signal schedule iterations looks)
      (spreadTrials plan' start signal schedule iterations looks) := by
  have sent : schedule.canSend plan = schedule.canSend plan' := by
    rw [Schedule.canSend, Schedule.canSend, sendable]
  have own (s : σ) : Alike f (plan.trial s) (plan'.trial s) := by
    have same : plan'.above plan.taken = plan' := congrArg plan'.above taken
    have here := alike plan.taken s
    rwa [same] at here
  have worker (s : σ) :
      Alike f ((schedule.atWorker plan).trial s) ((schedule.atWorker plan').trial s) := by
    unfold Schedule.atWorker
    split
    · exact alike 1 s
    · rw [taken]
      exact alike _ s
  refine runAround_alike (fun looks => ?_) signal looks
  rw [spreadBatches, spreadBatches, sent]
  split
  · exact inlineFrom_alike own start signal _ 0 _ looks
  · split
    · exact .refl _
    · split
      · exact .refl _
      · split
        · exact .refl _
        · exact runPooled_alike worker start _ _ _ looks

end BusinessCase
