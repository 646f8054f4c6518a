/-
BusinessCase.Proofs.Simulation.Failures — what can end a run that nobody stops.

A workbook that has been compiled has no problem left that the engine would
report. Its trials can still fail: arithmetic leaves the range of numbers, the
horizon is of no use, the stack or the memory is full. None of that is reported
on purpose; only a compilation and a token lead to such reports.

  §1 Kinds  — `Failure.IsInternal`.
  §2 Trials — what ends a trial, and a list of them.
  §3 Runs   — what ends the batches of a run.
  §4 Whole  — `simulate_internal`.
-/
import BusinessCase.Proofs.Formula.Evaluation
import BusinessCase.Proofs.Simulation.Rows
import BusinessCase.Simulation.Engine

namespace BusinessCase

open Formula

/-! ## §1 Kinds -/

/-- The failure is none that the engine reports on purpose. -/
def Failure.IsInternal : Failure → Prop
  | engine _ => False
  | badValue _ | arithmetic _ | foreignNode | wrongKind | stackExhausted | missingColumn _
  | emptyList | exhausted | noRoom => True

theorem Failure.isInternal_ofSampling (e : SamplingError Float) : (ofSampling e).IsInternal := by
  cases e <;> trivial

theorem Failure.isInternal_ofHorizon (fault : HorizonFault) : (ofHorizon fault).IsInternal := by
  rcases fault with (_ | _) | _ <;> trivial

theorem Failure.isInternal_ofNumeral (fault : NumeralFault) : (ofNumeral fault).IsInternal := by
  cases fault <;> trivial

theorem Failure.isInternal_ofSeed (fault : Seed.SeedFault) : (ofSeed fault).IsInternal := by
  cases fault with
  | numeral fault => exact isInternal_ofNumeral fault
  | negative | kind | notShown | unrecognized => trivial

theorem Failure.isInternal_ofFault (fault : ValidationFault) : (ofFault fault).IsInternal := by
  rcases fault with _ | _ | ⟨_, _ | _⟩ <;> trivial

/-! ## §2 Trials -/

section Trials

variable {plan : Plan Float}

/-- Formulas that find numbers under all names end in no report. -/
theorem Plan.complete_internal (sampled : Table Float) :
    FailsOnly (fun e => (Failure.ofEval e).IsInternal) (plan.complete sampled) := by
  have looks (values : Table Float) (name : String) :
      FailsOnly (fun e => (Failure.ofEval e).IsInternal)
        (resolve (fun name => (values.find? name).map Cell.number) name) := by
    rw [resolve]
    cases values.find? name <;> exact FailsOnly.ok _
  rw [Plan.complete]
  generalize plan.order = ids
  induction ids generalizing sampled with
  | nil => exact FailsOnly.ok sampled
  | cons id rest ih =>
    rw [Plan.evaluateFrom]
    split
    · exact ih sampled
    · next e _ =>
      have own : FailsOnly (fun e => (Failure.ofEval e).IsInternal)
          (e.outcome (plan.taken + 2)
            (resolve fun name => (sampled.find? name).map Cell.number)) := by
        rw [Expr.outcome]
        split
        · exact Expr.eval_failsOnly (looks sampled) (fun _ => trivial) trivial e
        · exact FailsOnly.error trivial
      split
      · next failed => exact FailsOnly.error (own _ failed)
      · exact ih _

theorem Plan.rollUp_internal (sampled values : Table Float) :
    FailsOnly (fun e => (Failure.ofTrial e).IsInternal) (plan.rollUp sampled values) := by
  unfold Plan.rollUp
  dsimp only
  split
  · exact FailsOnly.error (Failure.isInternal_ofHorizon _)
  · split
    · exact FailsOnly.error trivial
    · split
      · exact FailsOnly.error trivial
      · exact FailsOnly.ok _

variable {σ : Type} [UniformSource σ Float]

/-- **No trial ends in a report.** -/
theorem Plan.trial_internal (s : σ) :
    FailsOnly (fun e => (Failure.ofTrial e).IsInternal) (plan.trial s).1 := by
  unfold Plan.trial
  split
  · exact FailsOnly.error (Failure.isInternal_ofSampling _)
  · next sampled _ _ =>
    rw [Plan.settle]
    split
    · next failed => exact FailsOnly.error (plan.complete_internal _ _ failed)
    · exact plan.rollUp_internal _ _

theorem Plan.trialsAt_internal (start : Nat → σ) (places : List (Nat × Nat)) :
    FailsOnly (fun e => (Failure.ofRun e).IsInternal)
      ((places.mapM fun place => plan.trialAt (start place.1) place.2).mapError .trial) :=
  FailsOnly.mapError (FailsOnly.mapM fun _ _ => Plan.trial_internal _)

/-! ## §3 Runs -/

theorem inlineFrom_internal (start : Nat → σ) (interval : Interval) (i : Nat) (sizes : List Nat)
    (looks : Nat) :
    FailsOnly (fun e => (Failure.ofRun e).IsInternal)
      (inlineFrom plan start none interval i sizes looks).1 := by
  rw [inlineFrom_fst (undisturbed_none interval)]
  exact plan.trialsAt_internal start _

theorem spreadTrials_internal (start : Nat → σ) (schedule : Schedule) (iterations looks : Nat) :
    FailsOnly (fun e => (Failure.ofRun e).IsInternal)
      (spreadTrials plan start none schedule iterations looks).1 := by
  have batches (sizes : List Nat) (looks : Nat) : FailsOnly (fun e => (Failure.ofRun e).IsInternal)
      (spreadBatches plan start none schedule sizes looks).1 := by
    unfold spreadBatches
    split
    · exact inlineFrom_internal start _ 0 sizes looks
    · split
      · exact FailsOnly.error trivial
      · split
        · exact FailsOnly.error trivial
        · split
          · exact FailsOnly.error trivial
          · rw [runPooled_fst (undisturbed_shared (undisturbed_none _)) sizes
              fun i inside => List.mem_range.mpr inside]
            exact (schedule.atWorker plan).trialsAt_internal start _
  have own := batches (batchSizes iterations schedule.batchSize) looks
  unfold spreadTrials runAround
  simp only [Step.andThen, look]
  split
  · next failed =>
    rw [failed] at own
    exact own
  · split
    · exact FailsOnly.error trivial
    · exact FailsOnly.ok _

theorem truthBatch_internal (start : Nat → σ) (interval : Interval) (looks : Nat) :
    FailsOnly (fun e => (Failure.ofRun e).IsInternal)
      (truthBatch plan start none interval looks).1 := by
  have batch : FailsOnly (fun e => (Failure.ofRun e).IsInternal)
      (inlineFrom plan start none interval 0 [1] looks).1 :=
    inlineFrom_internal start interval 0 _ _
  simp only [truthBatch, look]
  split
  · next failed =>
    rw [failed] at batch
    exact batch
  · exact FailsOnly.error trivial

end Trials

theorem seededTrials_internal (plan : Plan Float) (settings : Settings) (seed : List UInt32)
    (iterations : Value) :
    FailsOnly Failure.IsInternal (seededTrials plan settings seed none iterations).1 := by
  unfold seededTrials
  refine FailsOnly.mapError ?_
  split
  · split
    · next e listed =>
      have full : e = .tooManyBatches ∨ e = .noRoom := by
        unfold listingError? at listed
        split at listed
        · exact .inl (Option.some.inj listed).symm
        · split at listed
          · exact .inr (Option.some.inj listed).symm
          · cases listed
      rcases full with rfl | rfl <;> exact FailsOnly.error trivial
    · split
      · exact truthBatch_internal _ _ 0
      · exact spreadTrials_internal _ _ _ 0
  · exact FailsOnly.error trivial

/-! ## §4 Whole -/

section Whole

variable {settings : Settings} {w : Workbook} {iterations : Value}

theorem reportOf_internal (plan : Plan Float) (trials : List (Trial Float)) :
    FailsOnly Failure.IsInternal (reportOf plan settings trials).1 := by
  unfold reportOf
  dsimp only
  split
  · exact FailsOnly.error trivial
  · dsimp only
    split
    · exact FailsOnly.ok _
    · exact FailsOnly.error trivial

/-- What a compilation ends in, so does the simulation of as many trials as may be asked for. -/
theorem simulate_of_compile {wanted : Value}
    (counted : checkedTrials (settings.inside 1) iterations = .ok wanted) {e : CompileError}
    (failed : w.compile (settings.inside 1).limits settings.horizon.horizon = .error e)
    (seed : Value) (signal : Option Signal) (entropy : List UInt32) :
    (simulate settings w iterations seed signal entropy).result = .error (.ofCompile e) := by
  have unplanned : planOf (settings.inside 1) w = .error (.ofCompile e) := by
    have horizon : (settings.inside 1).horizon = settings.horizon := rfl
    rw [planOf, horizon, failed]
    rfl
  simp only [simulate, counted, unplanned]
  rfl

theorem checkedTrials_internal (settings : Settings) (iterations : Value) :
    FailsOnly Failure.IsInternal (checkedTrials settings iterations) := by
  refine FailsOnly.bind ?_ fun wanted _ => ?_
  · unfold trialsWanted
    split
    · exact FailsOnly.ok _
    · exact FailsOnly.mapError fun fault _ => Failure.isInternal_ofNumeral fault
  · split
    · exact FailsOnly.ok _
    · rw [outOfRange]
      split <;> exact FailsOnly.error trivial
    · exact FailsOnly.error trivial

/-- **A compiled workbook whose run nobody stops ends in no report.** -/
theorem simulate_internal {plan : Plan Float}
    (compiled : w.compile (settings.inside 1).limits settings.horizon.horizon = .ok plan)
    (iterations seed : Value) (entropy : List UInt32) :
    FailsOnly Failure.IsInternal (simulate settings w iterations seed none entropy).result := by
  have planned : planOf (settings.inside 1) w = .ok plan := by
    have horizon : (settings.inside 1).horizon = settings.horizon := rfl
    rw [planOf, horizon, compiled]
    rfl
  unfold simulate
  dsimp only
  split
  · next uncounted => exact FailsOnly.error (checkedTrials_internal _ _ _ uncounted)
  · next wanted _ =>
    rw [planned]
    cases Seed.wordsOf? (seedFor (settings.inside 1) seed) with
    | error fault => exact FailsOnly.error (Failure.isInternal_ofSeed fault)
    | ok words =>
      have run := seededTrials_internal plan (settings.inside 1) (words.getD entropy) wanted
      dsimp only [bind, Except.bind, Except.mapError]
      split
      · next failed =>
        rw [failed] at run
        exact FailsOnly.error (run _ rfl)
      · next trials _ _ => exact (reportOf_internal plan trials).map _

end Whole

end BusinessCase
