/-
BusinessCase.Proofs.Simulation.SampleColumns — the same samples in two plans.

A trial draws for its estimates, one after the other, and for nothing else. Two
plans with the same estimates therefore draw the same values from the same
source and leave it in the same state, as long as their trials come to an end.
So a column of samples does not change when fixed values, formulas, units,
categories or the horizon of a workbook do, or when fixed metrics come and go.

  §1 Trials  — `trial_agrees`, one trial after the other.
  §2 Endings — a run that ends has all its trials, whatever it looked at.
  §3 Columns — the trials of two runs, row by row.
  §4 Workbooks — the plans of workbooks with the same open estimates.
  §5 Whole   — `samples_agree`.
-/
import BusinessCase.Proofs.Sampling.Draws
import BusinessCase.Proofs.Simulation.Facts
import BusinessCase.Proofs.Simulation.Interleaving

namespace BusinessCase

open Scalar

variable {σ α : Type} [UniformSource σ α] [Scalar α] {plan plan' : Plan α}

/-! ## §1 Trials -/

/-- In trial `k` from a source the inputs that are drawn get these values, in order. -/
def Plan.Draws (plan : Plan α) (s : σ) (k : Nat) (xs : List α) : Prop :=
  ∃ t entries, plan.trialAt s k = .ok t ∧ t.sampled = Table.ofEntries entries ∧
    entries.map Prod.fst = plan.inputs.map Input.id ∧ drawnValues plan.inputs entries = xs

omit [UniformSource σ α] in
theorem settle_sampled {sampled : Table α} {t : Trial α} (ended : plan.settle sampled = .ok t) :
    t.sampled = sampled := by
  unfold Plan.settle at ended
  split at ended
  · cases ended
  · unfold Plan.rollUp at ended
    dsimp only at ended
    split at ended
    · cases ended
    · split at ended
      · cases ended
      · split at ended
        · cases ended
        · cases ended
          rfl

/-- A trial that ends has drawn for its estimates, and for nothing else. -/
theorem trial_draws {s s' : σ} {t : Trial α} (ended : plan.trial s = (.ok t, s')) :
    ∃ entries, t.sampled = Table.ofEntries entries ∧
      entries.map Prod.fst = plan.inputs.map Input.id ∧
      sampleEach plan.estimates s = (.ok (drawnValues plan.inputs entries), s') := by
  unfold Plan.trial at ended
  split at ended
  · cases ended
  · next entries between sampled =>
    obtain ⟨settled, rfl⟩ := Prod.mk.inj ended
    obtain ⟨drawn, names⟩ := sampleInputs_drawn sampled
    exact ⟨entries, settle_sampled settled, names, drawn⟩

/-- **Trials with the same estimates draw the same values** from the same source, and leave it in
the same state. -/
theorem trial_agrees (same : plan.estimates = plan'.estimates) {s left left' : σ} {t t' : Trial α}
    (ended : plan.trial s = (.ok t, left)) (ended' : plan'.trial s = (.ok t', left')) :
    left = left' ∧ ∃ xs, plan.Draws s 0 xs ∧ plan'.Draws s 0 xs := by
  obtain ⟨entries, sampled, names, drawn⟩ := trial_draws ended
  obtain ⟨entries', sampled', names', drawn'⟩ := trial_draws ended'
  rw [same, drawn'] at drawn
  obtain ⟨values, lefts⟩ := Prod.mk.inj drawn
  have first : plan.trialAt s 0 = .ok t := congrArg Prod.fst ended
  have first' : plan'.trialAt s 0 = .ok t' := congrArg Prod.fst ended'
  exact ⟨lefts.symm, drawnValues plan.inputs entries,
    ⟨t, entries, first, sampled, names, rfl⟩,
    ⟨t', entries', first', sampled', names', Except.ok.inj values⟩⟩

theorem Plan.stateAfter_succ (plan : Plan α) (k : Nat) (s : σ) :
    plan.stateAfter (k + 1) s = (plan.trial (plan.stateAfter k s)).2 := by
  induction k generalizing s with
  | zero => rfl
  | succ k ih => exact ih (plan.trial s).2

/-- So do all trials that both plans bring to an end, one after the other. -/
theorem trials_agree (same : plan.estimates = plan'.estimates) (s : σ) {n : Nat}
    (complete : ∀ k < n, ∃ t, plan.trialAt s k = .ok t)
    (complete' : ∀ k < n, ∃ t, plan'.trialAt s k = .ok t) :
    (∀ k ≤ n, plan.stateAfter k s = plan'.stateAfter k s) ∧
      ∀ k < n, ∃ xs, plan.Draws s k xs ∧ plan'.Draws s k xs := by
  have step (k : Nat) (within : k < n) (states : plan.stateAfter k s = plan'.stateAfter k s) :
      plan.stateAfter (k + 1) s = plan'.stateAfter (k + 1) s ∧
        ∃ xs, plan.Draws s k xs ∧ plan'.Draws s k xs := by
    obtain ⟨t, ended⟩ := complete k within
    obtain ⟨t', ended'⟩ := complete' k within
    rw [Plan.stateAfter_succ, Plan.stateAfter_succ, ← states]
    have whole : plan.trial (plan.stateAfter k s) = (.ok t, (plan.trial (plan.stateAfter k s)).2) :=
      Prod.ext ended rfl
    have whole' : plan'.trial (plan.stateAfter k s) =
        (.ok t', (plan'.trial (plan.stateAfter k s)).2) := by
      refine Prod.ext ?_ rfl
      rw [states]
      exact ended'
    obtain ⟨lefts, xs, draws, draws'⟩ := trial_agrees same whole whole'
    refine ⟨lefts, xs, draws, ?_⟩
    rwa [Plan.Draws, Plan.trialAt, ← states]
  have states (k : Nat) (within : k ≤ n) : plan.stateAfter k s = plan'.stateAfter k s := by
    induction k with
    | zero => rfl
    | succ k ih => exact (step k within (ih (by omega))).1
  exact ⟨states, fun k within => (step k within (states k (by omega))).2⟩

/-- Under the ids of the inputs that are drawn, a trial holds the values that they got. -/
theorem Plan.Draws.find? {s : σ} {k : Nat} {xs : List α} (draws : plan.Draws s k xs)
    (distinct : (plan.inputs.map Input.id).Nodup) {t : Trial α}
    (ended : plan.trialAt s k = .ok t) :
    (drawnInputs plan.inputs).map (fun input => t.sampled.find? input.id) = xs.map some := by
  obtain ⟨t', entries, ended', sampled, names, rfl⟩ := draws
  cases ended.symm.trans ended'
  rw [sampled]
  exact find?_ofEntries_drawnInputs names distinct

/-! ## §2 Endings -/

section Endings

variable {start : Nat → σ} {signal : Option Signal} {interval : Interval}

/-- A batch that ends is a list of its trials, whatever was found at the looks. -/
theorem batchFrom_eq_ok {count i looks : Nat} {s : σ} {trials : List (Trial α)}
    (ran : (batchFrom plan signal interval count i s looks).1 = .ok trials) :
    (List.range count).mapM (plan.trialAt s) = .ok trials := by
  induction count generalizing i s looks trials with
  | zero =>
    have none : [] = trials := by simpa [batchFrom] using ran
    exact congrArg Except.ok none
  | succ count ih =>
    have first : plan.trialAt s 0 = (plan.trial s).1 := rfl
    have later : plan.trialAt s ∘ Nat.succ = plan.trialAt (plan.trial s).2 := rfl
    rw [List.range_succ_eq_map, List.mapM_cons, List.mapM_map, first, later]
    rw [batchFrom] at ran
    split at ran
    · cases ran
    · split at ran
      · cases ran
      · next trial s' drawn =>
        split at ran
        · cases ran
        · next others _ done =>
          cases ran
          rw [drawn, ih (congrArg Prod.fst done)]
          rfl

theorem inlineFrom_eq_ok {i looks : Nat} {sizes : List Nat} {trials : List (Trial α)}
    (ran : (inlineFrom plan start signal interval i sizes looks).1 = .ok trials) :
    ((placesFrom i sizes).mapM fun place => plan.trialAt (start place.1) place.2) =
      .ok trials := by
  induction sizes generalizing i looks trials with
  | nil =>
    have none : [] = trials := by simpa [inlineFrom] using ran
    exact congrArg Except.ok none
  | cons count rest ih =>
    have own : (fun place : Nat × Nat => plan.trialAt (start place.1) place.2) ∘ (i, ·) =
      plan.trialAt (start i) := rfl
    rw [placesFrom_cons, List.mapM_append, List.mapM_map, own]
    rw [inlineFrom] at ran
    split at ran
    · cases ran
    · split at ran
      · cases ran
      · next batch _ first =>
        split at ran
        · cases ran
        · next others _ done =>
          cases ran
          rw [batchFrom_eq_ok (congrArg Prod.fst first), ih (congrArg Prod.fst done)]
          rfl

/-- So is what several workers give, in whatever order they finish. -/
theorem runPooled_eq_ok {looks : Nat} {sizes : List Nat} {trials : List (Trial α)}
    (ran : (runPooled plan start signal interval sizes (List.range sizes.length) looks).1 =
      .ok trials) : trialsOf plan start sizes = .ok trials := by
  have all : ∀ i < sizes.length, i ∈ List.range sizes.length :=
    fun i inside => List.mem_range.mpr inside
  have batch (i : Nat) (batch : List (Trial α))
      (done : (runBatch plan signal interval (sizes.getD i 0) (start i) 0).1 = .ok batch) :
      (((List.range (sizes.getD i 0)).map (i, ·)).mapM fun place : Nat × Nat =>
        plan.trialAt (start place.1) place.2).mapError RunError.trial = .ok batch := by
    rw [List.mapM_map]
    exact congrArg (Except.mapError RunError.trial) (batchFrom_eq_ok done)
  rw [runPooled, gather, Pool.run_eq all, List.mapM_map] at ran
  obtain ⟨batches, done, flat⟩ := map_eq_ok ran
  rw [trialsOf, placesFrom, zipIdx_eq_map, List.flatMap_map, ← mapM_flatMap,
    mapM_eq_ok_imp (fun i _ => batch i) done]
  exact congrArg Except.ok flat

/-- **A run that ends is the list of the trials of its batches**, which are done by the run itself
or by workers, on a stack of their own. -/
theorem spreadTrials_eq_ok {schedule : Schedule} {iterations looks : Nat}
    {trials : List (Trial α)}
    (ran : (spreadTrials plan start signal schedule iterations looks).1 = .ok trials) :
    ∃ t, trialsOf (plan.above t) start (batchSizes iterations schedule.batchSize) =
      .ok trials := by
  obtain ⟨-, looks, ran⟩ := runAround_eq_ok ran
  obtain ⟨t, used⟩ := inUse_eq_above schedule
    (batchSizes iterations schedule.batchSize).length plan
  refine ⟨t, ?_⟩
  rw [← used]
  unfold spreadBatches at ran
  split at ran
  · next inline =>
    rw [Schedule.inUse, if_pos inline]
    exact congrArg (Except.mapError RunError.trial) (inlineFrom_eq_ok ran)
  · next pooled =>
    rw [Schedule.inUse, if_neg pooled]
    split at ran
    · cases ran
    · split at ran
      · cases ran
      · split at ran
        · cases ran
        · exact runPooled_eq_ok ran

/-- So its trials are trials of its plan on that stack, and there is at least one. -/
theorem trials_of_spreadTrials {schedule : Schedule} {iterations looks : Nat}
    {trials : List (Trial α)}
    (ran : (spreadTrials plan start signal schedule iterations looks).1 = .ok trials) :
    trials ≠ [] ∧ ∃ taken, ∀ t ∈ trials, ∃ s : σ, ((plan.above taken).trial s).1 = .ok t := by
  obtain ⟨taken, done⟩ := spreadTrials_eq_ok ran
  refine ⟨(runAround_eq_ok ran).1, taken, fun t member => ?_⟩
  obtain ⟨place, -, ended⟩ := exists_of_mem_mapM (mapError_eq_ok done) member
  exact ⟨(plan.above taken).stateAfter place.2 (start place.1), ended⟩

end Endings

/-! ## §3 Columns -/

/-- The inputs that are drawn, by id, with their estimates. -/
def Plan.uncertain (plan : Plan α) : List (String × Distribution α) :=
  plan.inputs.filterMap fun input => input.estimate?.map (input.id, ·)

omit [UniformSource σ α] in
theorem estimates_eq (plan : Plan α) : plan.estimates = plan.uncertain.map Prod.snd := by
  rw [Plan.estimates, Plan.uncertain, List.map_filterMap]
  simp [Option.map_map, Function.comp_def]

omit [UniformSource σ α] in
theorem drawnInputs_ids (plan : Plan α) :
    (drawnInputs plan.inputs).map Input.id = plan.uncertain.map Prod.fst := by
  unfold Plan.uncertain
  induction plan.inputs with
  | nil => rfl
  | cons input rest ih =>
    rw [drawnInputs] at ih ⊢
    rw [List.filter_cons, List.filterMap_cons]
    cases input.estimate? with
    | none => exact ih
    | some b => exact congrArg (input.id :: ·) ih

/-- No two inputs share an id. -/
def Plan.Distinct (plan : Plan α) : Prop := (plan.inputs.map Input.id).Nodup

/-- Two trials that drew the same values hold them under the same ids. -/
theorem Plan.Draws.agrees (same : plan.uncertain = plan'.uncertain) {s : σ} {k : Nat} {xs : List α}
    (draws : plan.Draws s k xs) (draws' : plan'.Draws s k xs) (distinct : plan.Distinct)
    (distinct' : plan'.Distinct) {t t' : Trial α} (ended : plan.trialAt s k = .ok t)
    (ended' : plan'.trialAt s k = .ok t') :
    ∀ id ∈ plan.uncertain.map Prod.fst, t.sampled.find? id = t'.sampled.find? id := by
  have byId (p : Plan α) (table : Table α) :
      (drawnInputs p.inputs).map (fun input => table.find? input.id) =
        (p.uncertain.map Prod.fst).map table.find? := by
    rw [← drawnInputs_ids, List.map_map]
    rfl
  have held := draws.find? distinct ended
  rw [← draws'.find? distinct' ended', byId, byId, ← same] at held
  exact List.map_inj_left.mp held

theorem mem_placesFrom_iff {i batch k : Nat} {sizes : List Nat} :
    (batch, k) ∈ placesFrom i sizes ↔ ∃ count, (count, batch) ∈ sizes.zipIdx i ∧ k < count := by
  simp [placesFrom]

/-- Runs that end draw the same values in every batch. -/
theorem trialsOf_draws (same : plan.estimates = plan'.estimates) {start : Nat → σ}
    {sizes : List Nat} {trials trials' : List (Trial α)}
    (done : trialsOf plan start sizes = .ok trials)
    (done' : trialsOf plan' start sizes = .ok trials') :
    ∀ place ∈ placesFrom 0 sizes,
      ∃ xs, plan.Draws (start place.1) place.2 xs ∧ plan'.Draws (start place.1) place.2 xs := by
  rintro ⟨batch, k⟩ placed
  obtain ⟨count, isBatch, within⟩ := mem_placesFrom_iff.mp placed
  have complete := exists_of_mapM (mapError_eq_ok done)
  have complete' := exists_of_mapM (mapError_eq_ok done')
  have inside (j : Nat) (below : j < count) : (batch, j) ∈ placesFrom 0 sizes :=
    mem_placesFrom_iff.mpr ⟨count, isBatch, below⟩
  exact (trials_agree same (start batch) (fun j below => complete _ (inside j below))
    (fun j below => complete' _ (inside j below))).2 k within

/-- Row by row, their trials hold the same values under the ids of the inputs that are drawn. -/
theorem trialsOf_agree (same : plan.uncertain = plan'.uncertain) (distinct : plan.Distinct)
    (distinct' : plan'.Distinct) {start : Nat → σ} {sizes : List Nat}
    {trials trials' : List (Trial α)} (done : trialsOf plan start sizes = .ok trials)
    (done' : trialsOf plan' start sizes = .ok trials') :
    List.Forall₂ (fun t t' => ∀ id ∈ plan.uncertain.map Prod.fst,
      t.sampled.find? id = t'.sampled.find? id) trials trials' := by
  have estimates : plan.estimates = plan'.estimates := by rw [estimates_eq, estimates_eq, same]
  refine forall₂_of_mapM (fun place placed t t' ended ended' => ?_) (mapError_eq_ok done)
    (mapError_eq_ok done')
  obtain ⟨xs, draws, draws'⟩ := trialsOf_draws estimates done done' place placed
  exact draws.agrees same draws' distinct distinct' ended ended'

/-- The table of a run has the samples of each input as a column. -/
def Plan.samples (plan : Plan α) (trials : List (Trial α)) (id : String) : Option (List α) :=
  (TrialTables.ofTrials plan trials).metrics.find? id

/-- **So have their columns of samples**, however much of the stack is taken. -/
theorem samples_of_trialsOf (same : plan.uncertain = plan'.uncertain) (distinct : plan.Distinct)
    (distinct' : plan'.Distinct) {start : Nat → σ} {sizes : List Nat} {t t' : Nat}
    {trials trials' : List (Trial α)} (done : trialsOf (plan.above t) start sizes = .ok trials)
    (done' : trialsOf (plan'.above t') start sizes = .ok trials') :
    ∀ id ∈ plan.uncertain.map Prod.fst, ∃ column,
      plan.samples trials id = some column ∧ plan'.samples trials' id = some column := by
  intro id drawn
  have listed (p : Plan α) (member : id ∈ p.uncertain.map Prod.fst) :
      id ∈ p.inputs.map Input.id := by
    rw [← drawnInputs_ids, drawnInputs] at member
    exact (List.filter_sublist.map Input.id).subset member
  refine ⟨trials.map fun t => (t.sampled.find? id).getD nan, ?_, ?_⟩
  · exact idColumns_find? trials Trial.sampled (listed plan drawn)
  · refine (idColumns_find? trials' Trial.sampled (listed plan' (same ▸ drawn))).trans ?_
    have inputs : (plan.above t).uncertain = (plan'.above t').uncertain := same
    have rows := trialsOf_agree inputs distinct distinct' done done'
    have columns : List.Forall₂ (· = ·)
        (trials'.map fun t => (t.sampled.find? id).getD nan)
        (trials.map fun t => (t.sampled.find? id).getD nan) := by
      rw [List.forall₂_map_left_iff, List.forall₂_map_right_iff]
      exact rows.flip.imp fun t t' agree => by rw [agree id drawn]
    rw [List.forall₂_eq_eq_eq] at columns
    rw [columns]

/-! ## §4 Workbooks -/

section Workbooks

variable {w w' : Workbook} {settings settings' : Settings}

/-- The metrics with an estimate that leaves something open, by id. -/
def Workbook.uncertain (w : Workbook) : List (String × Distribution Float) :=
  w.metrics.filterMap fun m => (m.distribution.filter (!·.isDegenerate)).map (m.id, ·)

/-- The inputs that a plan draws are the metrics whose estimates leave something open. -/
theorem uncertain_plan (limits : Formula.Limits) (horizon : Horizon Float) :
    (w.plan limits horizon).uncertain = w.uncertain := by
  have input (m : Metric) : m.input.estimate? = m.distribution.filter (!·.isDegenerate) := by
    unfold Input.estimate? Metric.input
    cases m.distribution with
    | none => rfl
    | some b =>
      have settled : eq b.low b.high = b.isDegenerate := rfl
      dsimp only
      rw [settled, Option.filter_some]
      cases b.isDegenerate <;> rfl
  have inputs : (w.plan limits horizon).inputs = w.metrics.map Metric.input := rfl
  rw [Plan.uncertain, Workbook.uncertain, inputs, List.filterMap_map]
  refine List.filterMap_congr fun m _ => ?_
  rw [Function.comp_apply, input]
  rfl

theorem planOf_eq_ok {plan : Plan Float} (compiled : planOf settings w = .ok plan) :
    plan = w.plan settings.limits settings.horizon.horizon ∧ plan.Distinct := by
  obtain ⟨-, sound, rfl⟩ := compile_eq_ok_iff.mp (mapError_eq_ok compiled)
  refine ⟨rfl, ?_⟩
  have metrics : (w.metrics.map Metric.id).Nodup := (List.nodup_append'.mp sound.distinct).1
  have inputs : (w.plan settings.limits settings.horizon.horizon).inputs.map Input.id =
      w.metrics.map Metric.id := List.map_map
  rwa [Plan.Distinct, inputs]

/-- A run under a seed that ends is the list of the trials of its batches, each of which draws from
a child of the seed. -/
theorem seededTrials_eq_ok {plan : Plan Float} {seed : List UInt32} {signal : Option Signal}
    {iterations : Value} {trials : List (Trial Float)}
    (ran : (seededTrials plan settings seed signal iterations).1 = .ok trials) :
    ∃ count size t, wholeCount? iterations = some count ∧
      wholeCount? settings.batchSize = some size ∧
      trialsOf (plan.above t) (Permuted.ofChild seed)
        (batchSizes (trialsAsked count size.toNat) size.toNat) = .ok trials := by
  replace ran := mapError_eq_ok ran
  split at ran
  · next count size asked sized =>
    split at ran
    · cases ran
    · split at ran
      · unfold truthBatch at ran
        split at ran
        · cases ran
        · split at ran <;> cases ran
      · obtain ⟨t, done⟩ := spreadTrials_eq_ok ran
        exact ⟨count, size, t, asked, sized, done⟩
  · cases ran

end Workbooks

/-! ## §5 Whole -/

/-- **The same estimates get the same samples.** Two plans whose inputs, without those that are
fixed and those whose estimates leave nothing open, have the same estimates in the same order draw
the same values for them, trial by trial from any source, as long as the trials of both come to an
end; and after each trial they leave the source in the same state, so after as many draws. Where the
ids of those inputs are the same too, and no id is used twice, runs with the same batch size from
the same sources have the same columns of samples, whoever does their batches and whatever token
they look at. So have runs under the same seed of two workbooks that compile and have the same open
estimates, whatever else is in them and whatever else is set. -/
theorem samples_agree :
    (∀ {σ α : Type} [UniformSource σ α] [Scalar α] (plan plan' : Plan α),
      plan.estimates = plan'.estimates → ∀ (s : σ) (n : Nat),
        (∀ k < n, ∃ t, plan.trialAt s k = .ok t) → (∀ k < n, ∃ t, plan'.trialAt s k = .ok t) →
          (∀ k ≤ n, plan.stateAfter k s = plan'.stateAfter k s) ∧
            ∀ k < n, ∃ xs, plan.Draws s k xs ∧ plan'.Draws s k xs) ∧
    (∀ {σ α : Type} [UniformSource σ α] [Scalar α] (plan plan' : Plan α),
      plan.uncertain = plan'.uncertain → plan.Distinct → plan'.Distinct →
      ∀ (start : Nat → σ) (signal signal' : Option Signal) (schedule schedule' : Schedule),
        schedule.batchSize = schedule'.batchSize →
        ∀ (iterations looks looks' : Nat) (trials trials' : List (Trial α)),
          (spreadTrials plan start signal schedule iterations looks).1 = .ok trials →
          (spreadTrials plan' start signal' schedule' iterations looks').1 = .ok trials' →
            ∀ id ∈ plan.uncertain.map Prod.fst, ∃ column,
              plan.samples trials id = some column ∧ plan'.samples trials' id = some column) ∧
    ∀ (w w' : Workbook), w.uncertain = w'.uncertain →
      ∀ (settings settings' : Settings), settings.batchSize = settings'.batchSize →
        ∀ (plan plan' : Plan Float),
          planOf settings w = .ok plan → planOf settings' w' = .ok plan' →
          ∀ (seed : List UInt32) (signal signal' : Option Signal) (iterations : Value)
            (trials trials' : List (Trial Float)),
            (seededTrials plan settings seed signal iterations).1 = .ok trials →
            (seededTrials plan' settings' seed signal' iterations).1 = .ok trials' →
              ∀ id ∈ w.uncertain.map Prod.fst, ∃ column,
                plan.samples trials id = some column ∧ plan'.samples trials' id = some column := by
  refine ⟨fun plan plan' same s n => trials_agree same s, ?_, ?_⟩
  · intro σ α _ _ plan plan' same distinct distinct' start signal signal' schedule schedule' sized
      iterations looks looks' trials trials' ran ran'
    obtain ⟨t, done⟩ := spreadTrials_eq_ok ran
    obtain ⟨t', done'⟩ := spreadTrials_eq_ok ran'
    rw [sized] at done
    exact samples_of_trialsOf same distinct distinct' done done'
  · intro w w' same settings settings' sized plan plan' compiled compiled' seed signal signal'
      iterations trials trials' ran ran'
    obtain ⟨rfl, distinct⟩ := planOf_eq_ok compiled
    obtain ⟨rfl, distinct'⟩ := planOf_eq_ok compiled'
    obtain ⟨count, size, t, asked, isSize, done⟩ := seededTrials_eq_ok ran
    obtain ⟨count', size', t', asked', isSize', done'⟩ := seededTrials_eq_ok ran'
    cases asked.symm.trans asked'
    rw [← sized] at isSize'
    cases isSize.symm.trans isSize'
    have inputs : (w.plan settings.limits settings.horizon.horizon).uncertain =
        (w'.plan settings'.limits settings'.horizon.horizon).uncertain :=
      (uncertain_plan _ _).trans (same.trans (uncertain_plan _ _).symm)
    rw [← uncertain_plan settings.limits settings.horizon.horizon]
    exact samples_of_trialsOf inputs distinct distinct' done done'

/-- A price that is estimated. -/
def pricePlan : Plan Float :=
  { inputs := [⟨"price", "price", .estimate ⟨1, 2, 3⟩, .null⟩], formulas := [], order := []
    categories := [], horizon := ⟨[1], [1], .ok 0, none, none, []⟩ }

/-- The price behind a fee and a rate that is settled, for two years. -/
def rentPlan : Plan Float :=
  { inputs := [⟨"fee", "fee", .fixed 100, .null⟩, ⟨"rate", "rate", .estimate ⟨2, 2, 2⟩, .null⟩,
      ⟨"price", "price per month", .estimate ⟨1, 2, 3⟩, .null⟩]
    formulas := [], order := []
    categories := [⟨"income", "income", .benefit, ["fee"]⟩]
    horizon := ⟨[1, 1], [1, 1], .ok 0, none, none, []⟩ }

theorem pricePlan_trial :
    ∃ t, @Plan.trial (Listed Float) Float _ levelDoubles pricePlan sixNumbers =
      (.ok t, ⟨[], 6⟩) := by
  obtain ⟨t, settled⟩ : ∃ t, @Plan.settle Float levelDoubles pricePlan [("price", 2)] = .ok t :=
    ⟨_, rfl⟩
  let _ : Scalar Float := levelDoubles
  have inputs : sampleInputs pricePlan.inputs sixNumbers =
      (.ok [("price", 2)], (⟨[], 6⟩ : Listed Float)) := Sampler.andThen_of_ok sample_sixNumbers _
  refine ⟨t, ?_⟩
  rw [Plan.trial, inputs]
  exact congrArg (·, _) settled

theorem rentPlan_trial :
    ∃ t, @Plan.trial (Listed Float) Float _ levelDoubles rentPlan sixNumbers =
      (.ok t, ⟨[], 6⟩) := by
  obtain ⟨t, settled⟩ : ∃ t, @Plan.settle Float levelDoubles rentPlan
      [("fee", 100), ("rate", 2), ("price", 2)] = .ok t := ⟨_, rfl⟩
  let _ : Scalar Float := levelDoubles
  have price : sampleInputs [⟨"price", "price per month", .estimate ⟨1, 2, 3⟩, .null⟩] sixNumbers =
      (.ok [("price", (2 : Float))], (⟨[], 6⟩ : Listed Float)) :=
    Sampler.andThen_of_ok sample_sixNumbers _
  have rate : sampleInputs (rentPlan.inputs.drop 1) sixNumbers =
      (.ok [("rate", 2), ("price", (2 : Float))], (⟨[], 6⟩ : Listed Float)) :=
    congrArg (fun drawn => Sampler.andThen (fun _ => drawn)
      (fun table => Sampler.done (("rate", 2) :: table)) sixNumbers) price
  have inputs : sampleInputs rentPlan.inputs sixNumbers =
      (.ok [("fee", 100), ("rate", 2), ("price", 2)], (⟨[], 6⟩ : Listed Float)) :=
    congrArg (fun drawn => Sampler.andThen (fun _ => drawn)
      (fun table => Sampler.done (("fee", 100) :: table)) sixNumbers) rate
  refine ⟨t, ?_⟩
  rw [Plan.trial, inputs]
  exact congrArg (·, _) settled

/-- A run of one trial that ends. -/
theorem oneTrial_ends {s s' : σ} {t : Trial α} (ended : plan.trial s = (.ok t, s'))
    {signal : Option Signal} (silent : NeverStops signal) :
    (spreadTrials plan (fun _ => s) signal fourWorkers 1 0).1 = .ok [t] := by
  have quiet : Undisturbed signal fourWorkers.checkInterval :=
    fun token given => ⟨silent token given, (by decide : (250 : Int) ≠ 0)⟩
  have row : plan.rowAt (fun _ => s) fourWorkers.batchSize 0 = .ok t := congrArg Prod.fst ended
  -- one trial is one batch, which no pool is needed for
  have own : fourWorkers.inUse (fourWorkers.batches 1) plan = plan := rfl
  rw [spreadTrials_fst quiet (fun _ => rfl) (by decide) (by decide) (by rfl), own, List.range_one,
    List.mapM_cons, row]
  rfl

set_option maxRecDepth 4096 in
/-- So does a run of three trials of a fee. -/
theorem feeWith_runs {settings : Settings} (read : Settings.read [] [] = .ok settings)
    {others : List Category} (few : others = [] ∨ others = [prices]) {plan : Plan Float}
    (compiled : planOf (settings.inside 1) (feeWith others) = .ok plan) :
    ∃ trials, (seededTrials plan (settings.inside 1) [7] none (.int 3)).1 = .ok trials := by
  have unordered (limits : Formula.Limits) (horizon : Horizon Float) :
      (feeWith others).plan limits horizon =
        { (feeWith others).plan limits horizon with order := [] } := by
    have order : ((feeWith others).plan limits horizon).order = [] := by
      have none : (feeWith others).trees limits = [] := rfl
      rw [Workbook.plan, none, Workbook.planWith]
      exact List.filter_eq_nil_iff.mpr fun id _ => Bool.false_ne_true
    exact congrArg (fun order => { (feeWith others).plan limits horizon with order }) order
  obtain ⟨rfl, -⟩ := planOf_eq_ok compiled
  rw [unordered]
  cases read
  rcases few with rfl | rfl <;> exact ⟨_, rfl⟩

/-- The theorem at one trial of these plans, and at three of a fee under two lists of categories. -/
theorem samples_agree_priced :
    (@Plan.stateAfter (Listed Float) Float _ levelDoubles pricePlan 1 sixNumbers =
        @Plan.stateAfter (Listed Float) Float _ levelDoubles rentPlan 1 sixNumbers ∧
      ∃ xs, @Plan.Draws (Listed Float) Float _ levelDoubles pricePlan sixNumbers 0 xs ∧
        @Plan.Draws (Listed Float) Float _ levelDoubles rentPlan sixNumbers 0 xs) ∧
    (∃ trials trials' column,
      (@spreadTrials (Listed Float) Float _ levelDoubles pricePlan (fun _ => sixNumbers) none
        fourWorkers 1 0).1 = .ok trials ∧
      (@spreadTrials (Listed Float) Float _ levelDoubles rentPlan (fun _ => sixNumbers)
        (some fun _ => none) fourWorkers 1 0).1 = .ok trials' ∧
      @Plan.samples Float levelDoubles pricePlan trials "price" = some column ∧
      @Plan.samples Float levelDoubles rentPlan trials' "price" = some column) ∧
    ∃ settings plan plan' trials trials', Settings.read [] [] = .ok settings ∧
      planOf (settings.inside 1) (feeWith []) = .ok plan ∧
      planOf (settings.inside 1) (feeWith [prices]) = .ok plan' ∧
      (seededTrials plan (settings.inside 1) [7] none (.int 3)).1 = .ok trials ∧
      (seededTrials plan' (settings.inside 1) [7] none (.int 3)).1 = .ok trials' ∧
      ∀ id ∈ (feeWith []).uncertain.map Prod.fst, ∃ column,
        plan.samples trials id = some column ∧ plan'.samples trials' id = some column := by
  obtain ⟨draws, columns, workbooks⟩ := samples_agree
  obtain ⟨t, price⟩ := pricePlan_trial
  obtain ⟨t', rent⟩ := rentPlan_trial
  have complete {plan : Plan Float} {t : Trial Float}
      (ended : @Plan.trial (Listed Float) Float _ levelDoubles plan sixNumbers = (.ok t, ⟨[], 6⟩)) :
      ∀ k < 1, ∃ t,
        @Plan.trialAt (Listed Float) Float _ levelDoubles plan sixNumbers k = .ok t := by
    intro k below
    obtain rfl : k = 0 := by omega
    exact ⟨t, congrArg Prod.fst ended⟩
  have ids : (pricePlan.inputs.map Input.id).Nodup ∧ (rentPlan.inputs.map Input.id).Nodup := by
    decide
  have estimates : @Plan.uncertain Float levelDoubles pricePlan =
      @Plan.uncertain Float levelDoubles rentPlan := rfl
  refine ⟨?_, ?_, ?_⟩
  · obtain ⟨states, drawn⟩ := @draws (Listed Float) Float _ levelDoubles pricePlan rentPlan rfl
      sixNumbers 1 (complete price) (complete rent)
    exact ⟨states 1 (by decide), drawn 0 (by decide)⟩
  · have untold : NeverStops none := fun token given => nomatch given
    have silent : NeverStops (some fun _ => none) := by
      intro token given look
      cases given
      rfl
    have ran := @oneTrial_ends (Listed Float) Float _ levelDoubles _ _ _ _ price _ untold
    have ran' := @oneTrial_ends (Listed Float) Float _ levelDoubles _ _ _ _ rent _ silent
    obtain ⟨column, own, other⟩ := @columns (Listed Float) Float _ levelDoubles pricePlan rentPlan
      estimates ids.1 ids.2 _ _ _ _ _ rfl 1 0 0 _ _ ran ran' "price" (by decide)
    exact ⟨[t], [t'], column, ran, ran', own, other⟩
  · obtain ⟨settings, read⟩ : ∃ settings, Settings.read [] [] = .ok settings := ⟨_, rfl⟩
    obtain ⟨plan, compiled⟩ := feeWith_compiles read [] (by simp)
    obtain ⟨plan', compiled'⟩ := feeWith_compiles read [prices] (by simp [prices])
    obtain ⟨trials, ran⟩ := feeWith_runs read (.inl rfl) compiled
    obtain ⟨trials', ran'⟩ := feeWith_runs read (.inr rfl) compiled'
    exact ⟨settings, plan, plan', trials, trials', read, compiled, compiled', ran, ran',
      workbooks (feeWith []) (feeWith [prices]) rfl _ _ rfl _ _ compiled compiled' _ _ _ _ _ _ ran
        ran'⟩

end BusinessCase
