/-
BusinessCase.Proofs.Simulation.Rows — which trial stands in which row.

A run cuts its trials into batches, and each batch draws from a source of its
own. Row `i` is therefore trial `i % b` of batch `i / b`, where `b` is the size
of a batch, whoever does the batches and in whatever order they are finished.
Nothing in this depends on how many trials are asked for, so that a longer run
starts with the rows of a shorter one.

  §1 Rows    — `Plan.trialAt`, `Plan.rowAt`, and a run without a stop.
  §2 Places  — where the batches put their trials: `places_batchSizes`.
  §3 Batches — one after the other, or by several workers.
  §4 Runs    — `spreadTrials_fst`, a run is the list of its rows.
  §5 Tables  — columns row by row.
  §6 Whole   — `spreadTrials_firstRows`.
-/
import BusinessCase.Proofs.Simulation.Room
import BusinessCase.Proofs.Steps
import BusinessCase.Simulation.Workers
import Mathlib.Data.List.Basic
import Mathlib.Tactic.Choose

namespace BusinessCase

open Scalar

variable {σ α : Type} [UniformSource σ α] [Scalar α] {plan : Plan α} {start : Nat → σ}

/-! ## §1 Rows -/

/-- The state of a source from which so many trials have been drawn. -/
def Plan.stateAfter (plan : Plan α) : (count : Nat) → σ → σ
  | 0, s => s
  | count + 1, s => plan.stateAfter count (plan.trial s).2

/-- The trial of that number from a source, counted from zero. -/
def Plan.trialAt (plan : Plan α) (s : σ) (k : Nat) : Except (TrialError α) (Trial α) :=
  (plan.trial (plan.stateAfter k s)).1

/-- The trial of a row: its number in its batch, drawn from the source of that batch. -/
def Plan.rowAt (plan : Plan α) (start : Nat → σ) (batchSize i : Nat) :
    Except (TrialError α) (Trial α) :=
  plan.trialAt (start (i / batchSize)) (i % batchSize)

theorem stateAfter_above {t : Nat} (k : Nat) (s : σ) :
    (plan.above t).stateAfter k s = plan.stateAfter k s := by
  induction k generalizing s with
  | zero => rfl
  | succ k ih => rw [Plan.stateAfter, Plan.stateAfter, trial_above_snd, ih]

/-- Rows that come to an end on two stacks are the same. -/
theorem rowAt_above_eq {t t' batchSize i : Nat} {trial trial' : Trial α}
    (done : (plan.above t).rowAt start batchSize i = .ok trial)
    (done' : (plan.above t').rowAt start batchSize i = .ok trial') : trial = trial' := by
  rw [Plan.rowAt, Plan.trialAt, stateAfter_above] at done done'
  exact trial_above_eq done done'

/-- A trial that comes to an end in its place does so wherever the formulas have room. -/
theorem trialAt_of_hasRoom {t t' : Nat} (room : (plan.above t').hasRoom) {s : σ} {k : Nat}
    {trial : Trial α} (done : (plan.above t).trialAt s k = .ok trial) :
    (plan.above t').trialAt s k = .ok trial := by
  rw [Plan.trialAt, stateAfter_above] at done ⊢
  exact trial_of_hasRoom room done

/-- Looks at such intervals can be made. -/
def Interval.Usable : Interval → Prop
  | whole count => count ≠ 0
  | decimal x => (x == 0.0) = false
  | unusable => False

/-- The token, if there is one, never stops a run, and the looks at it can be made. -/
def Undisturbed (signal : Option Signal) (interval : Interval) : Prop :=
  ∀ token, signal = some token → (∀ look, token look = none) ∧ interval.Usable

/-- Without a token nothing disturbs a run. -/
theorem undisturbed_none (interval : Interval) : Undisturbed none interval := by
  rintro token ⟨⟩

section Looks

variable {α : Type} {signal : Option Signal} {interval : Interval}

theorem exists_due (usable : interval.Usable) (i : Nat) :
    ∃ due, interval.due i = (.ok due : Except (RunError α) Bool) := by
  cases interval with
  | whole count => exact ⟨_, if_neg usable⟩
  | decimal x => exact ⟨_, if_neg (Bool.not_eq_true _ ▸ usable)⟩
  | unusable => exact usable.elim

theorem look_fst (quiet : Undisturbed signal interval) (looks : Nat) :
    (look signal looks : Except (RunError α) Unit × Nat).1 = .ok () := by
  unfold look
  cases signal with
  | none => rfl
  | some token => simp [(quiet token rfl).1]

theorem lookAt_fst (quiet : Undisturbed signal interval) (i looks : Nat) :
    (lookAt signal interval i looks : Except (RunError α) Unit × Nat).1 = .ok () := by
  unfold lookAt
  cases signal with
  | none => rfl
  | some token =>
    obtain ⟨due, isDue⟩ := exists_due (α := α) (quiet token rfl).2 i
    simp only [isDue]
    split
    · exact look_fst quiet looks
    · rfl

end Looks

variable {signal : Option Signal} {interval : Interval}

/-! ## §2 Places -/

/-- The number of the batch, and that in the batch, of every trial of the batches from number `i` on
with the given sizes. -/
def placesFrom (i : Nat) (sizes : List Nat) : List (Nat × Nat) :=
  (sizes.zipIdx i).flatMap fun batch => (List.range batch.1).map (batch.2, ·)

theorem placesFrom_cons (i count : Nat) (rest : List Nat) :
    placesFrom i (count :: rest) = (List.range count).map (i, ·) ++ placesFrom (i + 1) rest := by
  simp [placesFrom]

theorem placesFrom_concat (sizes : List Nat) (count : Nat) :
    placesFrom 0 (sizes ++ [count]) =
      placesFrom 0 sizes ++ (List.range count).map (sizes.length, ·) := by
  simp [placesFrom, List.zipIdx_append]

/-- The rows of a batch, counted on behind those of the batches before it. -/
theorem rows_of_batch {batchSize count : Nat} (within : count ≤ batchSize) (batch : Nat) :
    (List.range (batch * batchSize + count)).map (fun i => (i / batchSize, i % batchSize)) =
      (List.range (batch * batchSize)).map (fun i => (i / batchSize, i % batchSize)) ++
        (List.range count).map (batch, ·) := by
  rw [List.range_add, List.map_append, List.map_map]
  congr 1
  refine List.map_congr_left fun k member => ?_
  have inside : k < batchSize := Nat.lt_of_lt_of_le (List.mem_range.mp member) within
  have number : (batch * batchSize + k) / batchSize = batch := by
    rw [Nat.mul_comm, Nat.mul_add_div (by omega), Nat.div_eq_of_lt inside, Nat.add_zero]
  have position : (batch * batchSize + k) % batchSize = k := by
    rw [Nat.mul_comm, Nat.mul_add_mod, Nat.mod_eq_of_lt inside]
  simp [number, position]

theorem places_full (batchSize batches : Nat) :
    placesFrom 0 (List.replicate batches batchSize) =
      (List.range (batches * batchSize)).map fun i => (i / batchSize, i % batchSize) := by
  induction batches with
  | zero => simp [placesFrom]
  | succ batches ih =>
    rw [List.replicate_succ', placesFrom_concat, ih, List.length_replicate, Nat.succ_mul,
      rows_of_batch (Nat.le_refl batchSize)]

/-- **The batches fill the rows one after the other.** -/
theorem places_batchSizes (iterations : Nat) {batchSize : Nat} (positive : 1 ≤ batchSize) :
    placesFrom 0 (batchSizes iterations batchSize) =
      (List.range iterations).map fun i => (i / batchSize, i % batchSize) := by
  have left : iterations % batchSize ≤ batchSize := Nat.le_of_lt (Nat.mod_lt _ positive)
  have whole := rows_of_batch left (iterations / batchSize)
  rw [Nat.div_add_mod'] at whole
  rw [whole, ← places_full, batchSizes]
  split
  · next none => simp [none]
  · rw [placesFrom_concat, List.length_replicate]

/-! ## §3 Batches -/

/-- A batch is a list of its trials; the first that fails decides. -/
theorem batchFrom_fst (quiet : Undisturbed signal interval) (count i : Nat) (s : σ) (looks : Nat) :
    (batchFrom plan signal interval count i s looks).1 =
      ((List.range count).mapM (plan.trialAt s)).mapError .trial := by
  induction count generalizing i s looks with
  | zero => rfl
  | succ count ih =>
    have first : plan.trialAt s 0 = (plan.trial s).1 := rfl
    have later : plan.trialAt s ∘ Nat.succ = plan.trialAt (plan.trial s).2 := rfl
    have looked := lookAt_fst (α := α) quiet i looks
    rw [List.range_succ_eq_map, List.mapM_cons, List.mapM_map, first, later, batchFrom]
    split
    · next e _ found =>
      rw [found] at looked
      cases looked
    · next looks' _ =>
      rcases plan.trial s with ⟨outcome, s'⟩
      cases outcome with
      | error e => rfl
      | ok trial =>
        have rest := ih (i + 1) s' looks'
        dsimp only at rest ⊢
        generalize batchFrom plan signal interval count (i + 1) s' looks' = result at rest ⊢
        obtain ⟨outcome, _⟩ := result
        dsimp only at rest
        subst rest
        cases (List.range count).mapM (plan.trialAt s') <;> rfl

/-- Batches done one after the other give their trials in order. -/
theorem inlineFrom_fst (quiet : Undisturbed signal interval) (i : Nat) (sizes : List Nat)
    (looks : Nat) :
    (inlineFrom plan start signal interval i sizes looks).1 =
      ((placesFrom i sizes).mapM fun place => plan.trialAt (start place.1) place.2).mapError
        .trial := by
  induction sizes generalizing i looks with
  | nil => rfl
  | cons count rest ih =>
    have own : (fun place : Nat × Nat => plan.trialAt (start place.1) place.2) ∘ (i, ·) =
      plan.trialAt (start i) := rfl
    have looked := look_fst (α := α) quiet looks
    rw [placesFrom_cons, List.mapM_append, List.mapM_map, own, inlineFrom]
    split
    · next found =>
      rw [found] at looked
      cases looked
    · next looks' _ =>
      have batch : (batchFrom plan signal interval count 0 (start i) looks').1 =
          ((List.range count).mapM (plan.trialAt (start i))).mapError .trial :=
        batchFrom_fst quiet count 0 (start i) looks'
      rw [runBatch]
      generalize batchFrom plan signal interval count 0 (start i) looks' = result at batch ⊢
      obtain ⟨outcome, looks''⟩ := result
      dsimp only at batch
      subst batch
      cases (List.range count).mapM (plan.trialAt (start i)) with
      | error e => rfl
      | ok trials =>
        have others := ih (i + 1) looks''
        dsimp only [Except.mapError]
        generalize inlineFrom plan start signal interval (i + 1) rest looks'' = result at others ⊢
        obtain ⟨outcome, _⟩ := result
        dsimp only at others
        subst others
        cases (placesFrom (i + 1) rest).mapM fun place => plan.trialAt (start place.1) place.2 <;>
          rfl

theorem Pool.run_eq {β : Type} {completion : List Nat} {count : Nat}
    (all : ∀ i < count, i ∈ completion) (task : Nat → β) :
    Pool.run completion count task = (List.range count).map task := by
  have looked (i : Nat) (member : i ∈ completion) :
      (Pool.finished completion task).lookup i = some (task i) := by
    rw [Pool.finished]
    clear all
    induction completion with
    | nil => cases member
    | cons first rest ih =>
      rw [List.map_cons, List.lookup_cons]
      by_cases same : i = first
      · simp [same]
      · have other : (i == first) = false := by simpa using same
        rw [other]
        exact ih ((List.mem_cons.mp member).resolve_left same)
  rw [Pool.run, Pool.collect, ← List.filterMap_eq_map]
  refine List.filterMap_congr fun i member => ?_
  exact looked i (all i (List.mem_range.mp member))

/-- The batches by their numbers. -/
theorem zipIdx_eq_map (sizes : List Nat) :
    sizes.zipIdx = (List.range sizes.length).map fun i => (sizes.getD i 0, i) := by
  refine List.ext_getElem (by simp) fun i inside _ => ?_
  have bound : i < sizes.length := by simpa using inside
  simp [bound]

/-- So do batches done by several workers, in whatever order these finish them. -/
theorem runPooled_fst (quiet : Undisturbed signal interval) (sizes : List Nat)
    {completion : List Nat} (all : ∀ i < sizes.length, i ∈ completion) (looks : Nat) :
    (runPooled plan start signal interval sizes completion looks).1 =
      ((placesFrom 0 sizes).mapM fun place => plan.trialAt (start place.1) place.2).mapError
        .trial := by
  have batch (i : Nat) : (runBatch plan signal interval (sizes.getD i 0) (start i) 0).1 =
      (((List.range (sizes.getD i 0)).map (i, ·)).mapM fun place : Nat × Nat =>
        plan.trialAt (start place.1) place.2).mapError .trial := by
    rw [runBatch, batchFrom_fst quiet, List.mapM_map]
    rfl
  rw [runPooled, gather, Pool.run_eq all, List.mapM_map, placesFrom, zipIdx_eq_map,
    List.flatMap_map, ← mapM_flatMap]
  exact congrArg (fun f => ((List.range sizes.length).mapM f).map List.flatten) (funext batch)

/-! ## §4 Runs -/

theorem batchSizes_ne_nil {iterations : Nat} (some : 1 ≤ iterations) (batchSize : Nat) :
    batchSizes iterations batchSize ≠ [] := by
  intro none
  have parts := List.append_eq_nil_iff.mp none
  have full : iterations / batchSize = 0 := by simpa using parts.1
  have left : iterations % batchSize = 0 := by simpa using parts.2
  have whole := Nat.div_add_mod iterations batchSize
  rw [full, left] at whole
  omega

/-- How many batches a run has. -/
def Schedule.batches (schedule : Schedule) (iterations : Nat) : Nat :=
  (batchSizes iterations schedule.batchSize).length

/-- The plan where the trials of so many batches are done. -/
def Schedule.inUse (schedule : Schedule) (batches : Nat) (plan : Plan α) : Plan α :=
  if schedule.isInline batches then plan else schedule.atWorker plan

/-- Is the plan there where the trials of so many batches are done? -/
def Schedule.delivers (schedule : Schedule) (batches : Nat) (plan : Plan α) : Bool :=
  schedule.isInline batches || schedule.canSend plan

omit [Scalar α] in
/-- Where the trials are done decides how much of the stack is taken, and nothing else. -/
theorem inUse_eq_above (schedule : Schedule) (batches : Nat) (plan : Plan α) :
    ∃ t, schedule.inUse batches plan = plan.above t := by
  unfold Schedule.inUse
  split
  · exact ⟨plan.taken, rfl⟩
  · unfold Schedule.atWorker
    split <;> exact ⟨_, rfl⟩

theorem undisturbed_shared {schedule : Schedule}
    (quiet : Undisturbed signal schedule.checkInterval) :
    Undisturbed (schedule.shared signal) schedule.checkInterval := by
  unfold Schedule.shared
  split
  · exact quiet
  · exact undisturbed_none _

theorem spreadBatches_fst {schedule : Schedule} (quiet : Undisturbed signal schedule.checkInterval)
    (starts : ∀ batches, schedule.workers.canStart schedule.executor batches)
    {sizes : List Nat} (some : sizes ≠ []) (there : schedule.delivers sizes.length plan)
    (looks : Nat) :
    (spreadBatches plan start signal schedule sizes looks).1 =
      ((placesFrom 0 sizes).mapM fun place =>
        (schedule.inUse sizes.length plan).trialAt (start place.1) place.2).mapError .trial := by
  rw [spreadBatches, Schedule.inUse]
  split
  · exact inlineFrom_fst quiet 0 sizes looks
  · next pooled =>
    have sent : schedule.canSend plan := by simpa [Schedule.delivers, pooled] using there
    rw [if_neg (by simpa using some), if_neg (by simp [starts]), if_neg (by simp [sent])]
    exact runPooled_fst (undisturbed_shared quiet) sizes
      (fun i inside => List.mem_range.mpr inside) looks

omit [Scalar α] in
/-- What is between the looks of a run decides. -/
theorem runAround_fst (quiet : Undisturbed signal interval) {batches : Step α (List (Trial α))}
    {outcome : Except (RunError α) (List (Trial α))} (done : ∀ looks, (batches looks).1 = outcome)
    (some_row : outcome ≠ .ok []) (looks : Nat) : (runAround signal batches looks).1 = outcome := by
  have before := look_fst (α := α) quiet looks
  simp only [runAround, Step.andThen]
  split
  · next found =>
    rw [found] at before
    cases before
  · next looks' _ =>
    have own := done looks'
    split
    · next failed => rwa [failed] at own
    · next trials looks'' ended =>
      have after := look_fst (α := α) quiet looks''
      rw [ended] at own
      cases own
      split
      · next found =>
        rw [found] at after
        cases after
      · rw [if_neg fun empty => some_row (congrArg Except.ok (List.isEmpty_iff.mp empty))]

/-- **A run is the list of its rows**, whoever does the batches; the first row that fails decides.
-/
theorem spreadTrials_fst {schedule : Schedule} (quiet : Undisturbed signal schedule.checkInterval)
    (starts : ∀ batches, schedule.workers.canStart schedule.executor batches)
    (positive : 1 ≤ schedule.batchSize) {iterations : Nat} (some : 1 ≤ iterations)
    (there : schedule.delivers (schedule.batches iterations) plan) (looks : Nat) :
    (spreadTrials plan start signal schedule iterations looks).1 =
      ((List.range iterations).mapM ((schedule.inUse (schedule.batches iterations) plan).rowAt start
        schedule.batchSize)).mapError .trial := by
  have rows (plan : Plan α) : (fun place : Nat × Nat => plan.trialAt (start place.1) place.2) ∘
      (fun i => (i / schedule.batchSize, i % schedule.batchSize)) =
        plan.rowAt start schedule.batchSize := rfl
  refine runAround_fst quiet (fun looks => ?_) (fun none => ?_) looks
  · rw [spreadBatches_fst quiet starts (batchSizes_ne_nil some schedule.batchSize) there,
      places_batchSizes iterations positive, List.mapM_map, rows]
    rfl
  · have length := length_of_mapM (mapError_eq_ok none)
    rw [List.length_nil, List.length_range] at length
    omega

/-! ## §5 Tables -/

/-- The first rows of all tables. -/
def TrialTables.take (count : Nat) (tables : TrialTables α) : TrialTables α :=
  let first (columns : Table (List α)) := columns.map fun column => (column.1, column.2.take count)
  { outcomes := first tables.outcomes
    metrics := first tables.metrics
    categories := first tables.categories
    formulas := first tables.formulas }

/-- Every column of every table has so many rows. -/
def TrialTables.HasRows (count : Nat) (tables : TrialTables α) : Prop :=
  ∀ columns ∈ [tables.outcomes, tables.metrics, tables.categories, tables.formulas],
    ∀ column ∈ columns, column.2.length = count

omit [UniformSource σ α] in
theorem ofTrials_take (plan : Plan α) (trials : List (Trial α)) (count : Nat) :
    TrialTables.ofTrials plan (trials.take count) =
      (TrialTables.ofTrials plan trials).take count := by
  simp [TrialTables.ofTrials, TrialTables.take, outcomeColumn, yearColumns, idColumns,
    List.map_take, List.map_flatMap]

theorem ofTrials_hasRows (plan : Plan α) (trials : List (Trial α)) :
    (TrialTables.ofTrials plan trials).HasRows trials.length := by
  have year (i : Nat) : ∀ column ∈ yearColumns trials i, column.2.length = trials.length := by
    simp [yearColumns, outcomeColumn]
  have byId (ids : List String) (f : Trial α → Table α) :
      ∀ column ∈ idColumns trials ids f, column.2.length = trials.length := by
    simp [idColumns, outcomeColumn]
  have outcomes : ∀ column ∈ (TrialTables.ofTrials plan trials).outcomes,
      column.2.length = trials.length := by
    refine List.forall_mem_cons.mpr ⟨List.length_map _, ?_⟩
    refine List.forall_mem_cons.mpr ⟨List.length_map _, fun column member => ?_⟩
    obtain ⟨i, -, listed⟩ := List.mem_flatMap.mp member
    exact year (i + 1) column listed
  simp only [TrialTables.HasRows, List.forall_mem_cons]
  exact ⟨outcomes, byId _ _, byId _ _, byId _ _, List.forall_mem_nil _⟩

/-! ## §6 Whole -/

/-- **Which trials a run consists of.** Take a run of `n` trials and one of `m`, `n ≤ m`, that may
be spread over workers in different ways, and let no row of either fail where it is done. If what is
needed is there, the longer run gives `m` rows and the shorter one the first `n` of them: row `i` is
trial `i % batchSize` from the source of batch `i / batchSize`. Every column of its tables has `n`
entries, and they are the first ones of the same column of the longer run. -/
theorem spreadTrials_firstRows (plan : Plan α) (start : Nat → σ) {signal signal' : Option Signal}
    {schedule schedule' : Schedule} (quiet : Undisturbed signal schedule.checkInterval)
    (quiet' : Undisturbed signal' schedule'.checkInterval)
    (starts : ∀ batches, schedule.workers.canStart schedule.executor batches)
    (starts' : ∀ batches, schedule'.workers.canStart schedule'.executor batches)
    (positive : 1 ≤ schedule.batchSize) (same : schedule'.batchSize = schedule.batchSize)
    {n m : Nat} (some : 1 ≤ n) (fewer : n ≤ m)
    (there : schedule.delivers (schedule.batches n) plan)
    (there' : schedule'.delivers (schedule'.batches m) plan)
    (complete : ∀ i < n, ∃ trial,
      (schedule.inUse (schedule.batches n) plan).rowAt start schedule.batchSize i = .ok trial)
    (complete' : ∀ i < m, ∃ trial,
      (schedule'.inUse (schedule'.batches m) plan).rowAt start schedule.batchSize i = .ok trial)
    (looks looks' : Nat) :
    ∃ rows all,
      (spreadTrials plan start signal schedule n looks).1 = .ok rows ∧
      (spreadTrials plan start signal' schedule' m looks').1 = .ok all ∧
      rows.length = n ∧ all.length = m ∧
      (∀ i trial, rows[i]? = Option.some trial →
        (schedule.inUse (schedule.batches n) plan).rowAt start schedule.batchSize i = .ok trial) ∧
      rows = all.take n ∧
      (TrialTables.ofTrials plan rows).HasRows n ∧
      TrialTables.ofTrials plan rows = (TrialTables.ofTrials plan all).take n := by
  have nonempty : Nonempty (Trial α) := (complete 0 some).nonempty
  choose! row isRow using complete
  choose! row' isRow' using complete'
  obtain ⟨t, above⟩ := inUse_eq_above schedule (schedule.batches n) plan
  obtain ⟨t', above'⟩ := inUse_eq_above schedule' (schedule'.batches m) plan
  have first : ((List.range m).map row').take n = (List.range n).map row := by
    rw [← List.map_take, List.take_range, Nat.min_eq_left fewer]
    refine List.map_congr_left fun i member => ?_
    have inside : i < n := List.mem_range.mp member
    have own := isRow i inside
    have other := isRow' i (Nat.lt_of_lt_of_le inside fewer)
    rw [above] at own
    rw [above'] at other
    exact rowAt_above_eq other own
  have count : ((List.range n).map row).length = n := by simp
  refine ⟨(List.range n).map row, (List.range m).map row', ?_, ?_, count, by simp, ?_, first.symm,
    ?_, ?_⟩
  · rw [spreadTrials_fst quiet starts positive some there,
      mapM_eq_ok_map fun i member => isRow i (List.mem_range.mp member)]
    rfl
  · rw [spreadTrials_fst quiet' starts' (same ▸ positive) (Nat.le_trans some fewer) there', same,
      mapM_eq_ok_map fun i member => isRow' i (List.mem_range.mp member)]
    rfl
  · intro i trial found
    obtain ⟨inside, rfl⟩ := List.getElem?_eq_some_iff.mp found
    rw [List.getElem_map, List.getElem_range]
    exact isRow i (count ▸ inside)
  · have rows := ofTrials_hasRows plan ((List.range n).map row)
    rwa [count] at rows
  · rw [← ofTrials_take, first]

/-- A plan for one year with a fixed benefit. -/
def steadyPlan : Plan Float :=
  { inputs := [⟨"fee", "fee", .fixed 100, .null⟩], formulas := [], order := []
    categories := [⟨"income", "income", .benefit, ["fee"]⟩]
    horizon := ⟨[1], [1], .ok 0, none, none, []⟩ }

/-- Trials of that plan draw nothing, so none of them fails. -/
theorem steadyPlan_trial (s : Listed Float) : ∃ trial, (steadyPlan.trial s).1 = .ok trial :=
  ⟨_, rfl⟩

/-- Batches of two, one after the other. -/
def oneWorker : Schedule :=
  { batchSize := 2, workers := .whole 1, executor := .process, checkInterval := .whole 250 }

/-- Batches of two, done by four workers. -/
def fourWorkers : Schedule :=
  { batchSize := 2, workers := .whole 4, executor := .thread, checkInterval := .whole 250 }

/-- The theorem at that plan, for three trials and for five. -/
theorem spreadTrials_firstRows_steady :
    ∃ rows all,
      (spreadTrials steadyPlan (fun i => (⟨[], i⟩ : Listed Float)) none oneWorker 3 0).1 =
        .ok rows ∧
      (spreadTrials steadyPlan (fun i => (⟨[], i⟩ : Listed Float)) none fourWorkers 5 0).1 =
        .ok all ∧
      rows.length = 3 ∧ rows = all.take 3 := by
  have starts : ∀ batches, oneWorker.workers.canStart oneWorker.executor batches := fun _ => rfl
  have starts' : ∀ batches, fourWorkers.workers.canStart fourWorkers.executor batches :=
    fun _ => rfl
  obtain ⟨rows, all, ran, ran', length, -, -, first, -⟩ :=
    spreadTrials_firstRows steadyPlan (fun i => (⟨[], i⟩ : Listed Float)) (undisturbed_none _)
      (undisturbed_none _) starts starts' (by decide) rfl (by decide : 1 ≤ 3) (by decide : 3 ≤ 5)
      rfl rfl (fun _ _ => ⟨_, rfl⟩) (fun _ _ => ⟨_, rfl⟩) 0 0
  exact ⟨rows, all, ran, ran', length, first⟩

end BusinessCase
