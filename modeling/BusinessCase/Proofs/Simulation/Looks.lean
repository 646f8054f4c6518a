/-
BusinessCase.Proofs.Simulation.Looks — how often a run looks at its token.

A run of batches one after the other looks once before anything, once before
each batch, once at every so many trials of a batch, and once at the end. How
often that is depends on the sizes alone, so a token that first stops a run at
its look `k` stops it after exactly `k` looks if the run gets that far, and
otherwise changes nothing.

  §1 Steps   — `Looks`, a step with its count of looks; one step after another.
  §2 Trials  — `looksWithin`, the looks within a batch.
  §3 Batches — `looksOf`, the looks of a whole run.
  §4 Tokens  — `observed`, a token and a clock that change; `spreadTrials_looks`.
-/
import BusinessCase.Proofs.Simulation.Rows
import BusinessCase.Simulation.Workers
import Mathlib.Algebra.GroupWithZero.Nat
import Mathlib.Data.Nat.Count

namespace BusinessCase

/-! ## §1 Steps -/

/-- The signal stops nothing at the looks behind `looks`, up to look `last`. -/
def Signal.SilentTo (signal : Signal) (looks last : Nat) : Prop :=
  ∀ k, looks < k → k ≤ last → signal k = none

/-- Look `k` is the first behind `looks` that stops, and that is the reason. -/
def Signal.StopsAt (signal : Signal) (looks k : Nat) (reason : Stop) : Prop :=
  looks < k ∧ signal k = some reason ∧ ∀ j, looks < j → j < k → signal j = none

section Steps

variable {α β γ : Type} {signal : Signal}

/-- The step looks at the token so many times and gives the result, unless one of these looks
stops it. -/
structure Looks (signal : Signal) (step : Step α β) (count : Nat) (result : β) : Prop where
  passes : ∀ looks, signal.SilentTo looks (looks + count) →
    step looks = (.ok result, looks + count)
  stops : ∀ looks k reason, signal.StopsAt looks k reason → k ≤ looks + count →
    step looks = (.error (.stopped reason), k)

/-- What two steps give is made from what the first gives. -/
theorem Step.andThen_eq_ok {first : Step α β} {next : β → Step α γ} {looks : Nat} {result : γ}
    (done : (first.andThen next looks).1 = .ok result) :
    ∃ made, (first looks).1 = .ok made ∧ (next made (first looks).2).1 = .ok result := by
  unfold Step.andThen at done
  generalize first looks = outcome at done ⊢
  obtain ⟨_ | made, looks⟩ := outcome
  · simp at done
  · exact ⟨made, rfl, done⟩

theorem Step.andThen_of_ok {first : Step α β} {looks : Nat} {made : β}
    (done : (first looks).1 = .ok made) (next : β → Step α γ) :
    first.andThen next looks = next made (first looks).2 := by
  unfold Step.andThen
  generalize first looks = outcome at done ⊢
  obtain ⟨_, looks⟩ := outcome
  dsimp only at done
  subst done
  rfl

theorem looks_done (result : β) :
    Looks signal (fun looks => (.ok result, looks) : Step α β) 0 result where
  passes looks _ := rfl
  stops looks k reason stop within := by
    have behind := stop.1
    omega

theorem looks_look : Looks signal (look (some signal) : Step α Unit) 1 () where
  passes looks silent := by
    simp [look, silent (looks + 1) (by omega) (by omega)]
  stops looks k reason stop within := by
    obtain ⟨behind, found, -⟩ := stop
    have next : k = looks + 1 := by omega
    subst next
    simp [look, found]

/-- The looks of two steps add up. -/
theorem Looks.andThen {first : Step α β} {next : β → Step α γ} {m n : Nat} {made : β} {result : γ}
    (before : Looks signal first m made) (after : Looks signal (next made) n result) :
    Looks signal (first.andThen next) (m + n) result where
  passes looks silent := by
    have passed := before.passes looks fun k behind within => silent k behind (by omega)
    have passed' := after.passes (looks + m) fun k behind within =>
      silent k (by omega) (by omega)
    simp [Step.andThen, passed, passed', Nat.add_assoc]
  stops looks k reason stop within := by
    obtain ⟨behind, found, none⟩ := stop
    by_cases early : k ≤ looks + m
    · have stopped := before.stops looks k reason ⟨behind, found, none⟩ early
      simp [Step.andThen, stopped]
    · have passed := before.passes looks fun j inside below => none j inside (by omega)
      have stopped := after.stops (looks + m) k reason
        ⟨by omega, found, fun j inside below => none j (by omega) below⟩ (by omega)
      simp [Step.andThen, passed, stopped]

/-- A look that is made only if it is due. -/
theorem looks_lookAt {interval : Interval} {i : Nat} {due : Bool}
    (isDue : interval.due i = (.ok due : Except (RunError α) Bool)) :
    Looks signal (lookAt (some signal) interval i : Step α Unit) (if due then 1 else 0) () := by
  have same : (lookAt (some signal) interval i : Step α Unit) =
      if due then look (some signal) else fun looks => (.ok (), looks) := by
    funext looks
    simp only [lookAt, isDue]
    split <;> rfl
  rw [same]
  cases due with
  | true => exact looks_look
  | false => exact looks_done ()

end Steps

/-! ## §2 Trials -/

/-- How many of the trials `i, i + 1, …` of a batch, `count` of them, have a look before them if
there is one at every `every` trials. -/
def looksWithin (every : Nat) : (count i : Nat) → Nat
  | 0, _ => 0
  | count + 1, i => (if i % every = 0 then 1 else 0) + looksWithin every count (i + 1)

/-- The multiples of a number below a bound. -/
theorem count_multiples {every : Nat} (positive : 1 ≤ every) (bound : Nat) :
    Nat.count (fun i => i % every = 0) bound = (bound + every - 1) / every := by
  induction bound with
  | zero => simp [Nat.div_eq_of_lt (show every - 1 < every by omega)]
  | succ bound ih =>
    have next : bound + 1 + every - 1 = bound + every - 1 + 1 := by omega
    have divides : every ∣ bound + every - 1 + 1 ↔ bound % every = 0 := by
      rw [show bound + every - 1 + 1 = bound + every by omega, Nat.dvd_add_self_right,
        Nat.dvd_iff_mod_eq_zero]
    rw [Nat.count_succ, ih, next, Nat.succ_div]
    simp only [divides]

theorem looksWithin_add (every count i : Nat) :
    Nat.count (fun j => j % every = 0) i + looksWithin every count i =
      Nat.count (fun j => j % every = 0) (i + count) := by
  induction count generalizing i with
  | zero => simp [looksWithin]
  | succ count ih =>
    have rest := ih (i + 1)
    rw [Nat.count_succ] at rest
    rw [looksWithin, show i + (count + 1) = i + 1 + count by omega, ← rest]
    omega

/-- A batch looks at the token once for every part of it that has `every` trials or is left over. -/
theorem looksWithin_eq {every : Nat} (positive : 1 ≤ every) (count : Nat) :
    looksWithin every count 0 = (count + every - 1) / every := by
  have whole := looksWithin_add every count 0
  rw [Nat.count_zero, Nat.zero_add, Nat.zero_add, count_multiples positive] at whole
  exact whole

theorem due_whole {α : Type} {every : Nat} (positive : 1 ≤ every) (i : Nat) :
    (Interval.whole every).due i = (.ok (decide (i % every = 0)) : Except (RunError α) Bool) := by
  have nonzero : every ≠ 0 := by omega
  have same : ((i : Int) % every == 0) = decide (i % every = 0) := by
    rw [Bool.eq_iff_iff, beq_iff_eq, decide_eq_true_eq]
    omega
  simp [Interval.due, nonzero, same]

variable {σ α : Type} [UniformSource σ α] [Scalar α]
variable {plan : Plan α} {start : Nat → σ} {signal : Signal}

/-- A batch is a look, if one is due, then a trial, then the rest of the batch. -/
theorem batchFrom_succ {interval : Interval} (count i : Nat) {s : σ} {trial : Trial α}
    (done : plan.trialAt s 0 = .ok trial) :
    batchFrom plan (some signal) interval (count + 1) i s =
      (lookAt (some signal) interval i).andThen fun _ =>
        (batchFrom plan (some signal) interval count (i + 1) (plan.trial s).2).andThen
          fun trials looks => (.ok (trial :: trials), looks) := by
  have first : (plan.trial s).1 = .ok trial := done
  funext looks
  rw [batchFrom, Step.andThen]
  rcases lookAt (some signal) interval i looks with ⟨_ | _, looks'⟩
  · rfl
  · generalize plan.trial s = drawn at first ⊢
    obtain ⟨outcome, s'⟩ := drawn
    dsimp only at first
    subst first
    simp only [Step.andThen]
    rcases batchFrom plan (some signal) interval count (i + 1) s' looks' with ⟨_ | _, _⟩ <;> rfl

theorem looks_batchFrom {every : Nat} (positive : 1 ≤ every) {count : Nat} (i : Nat) {s : σ}
    {trials : List (Trial α)} (done : (List.range count).mapM (plan.trialAt s) = .ok trials) :
    Looks signal (batchFrom plan (some signal) (.whole every) count i s)
      (looksWithin every count i) trials := by
  induction count generalizing i s trials with
  | zero =>
    cases done
    exact looks_done []
  | succ count ih =>
    have later : plan.trialAt s ∘ Nat.succ = plan.trialAt (plan.trial s).2 := rfl
    rw [List.range_succ_eq_map] at done
    obtain ⟨trial, others, first, rest, rfl⟩ := mapM_cons_eq_ok done
    rw [List.mapM_map, later] at rest
    have counted : looksWithin every (count + 1) i =
        (if decide (i % every = 0) then 1 else 0) + (looksWithin every count (i + 1) + 0) := by
      simp [looksWithin]
    rw [batchFrom_succ count i first, counted]
    refine (looks_lookAt (due_whole positive i)).andThen ?_
    exact (ih (i + 1) rest).andThen (looks_done (trial :: others))

/-! ## §3 Batches -/

/-- The looks of a run of so many trials in batches, with a look at every `every` trials of a
batch: one before anything, one before each batch, those within it, which are its size divided by
`every` and rounded up, and one at the end. -/
def looksOf (iterations batchSize every : Nat) : Nat :=
  2 + ((batchSizes iterations batchSize).map fun count => 1 + (count + every - 1) / every).sum

/-- Batches one after the other are a look, then a batch, then the other batches. -/
theorem inlineFrom_cons (interval : Interval) (i count : Nat) (rest : List Nat) :
    inlineFrom plan start (some signal) interval i (count :: rest) =
      (look (some signal)).andThen fun _ =>
        (runBatch plan (some signal) interval count (start i)).andThen fun trials =>
          (inlineFrom plan start (some signal) interval (i + 1) rest).andThen
            fun others looks => (.ok (trials ++ others), looks) := by
  funext looks
  rw [inlineFrom, Step.andThen]
  rcases look (some signal) looks with ⟨_ | _, looks'⟩
  · rfl
  · dsimp only [Step.andThen]
    rcases runBatch plan (some signal) interval count (start i) looks' with ⟨_ | trials, looks''⟩
    · rfl
    · dsimp only
      rcases inlineFrom plan start (some signal) interval (i + 1) rest looks'' with ⟨_ | _, _⟩ <;>
        rfl

theorem looks_inlineFrom {every : Nat} (positive : 1 ≤ every) (i : Nat) {sizes : List Nat}
    {trials : List (Trial α)}
    (done : ((placesFrom i sizes).mapM fun place => plan.trialAt (start place.1) place.2) =
      .ok trials) :
    Looks signal (inlineFrom plan start (some signal) (.whole every) i sizes)
      (sizes.map fun count => 1 + (count + every - 1) / every).sum trials := by
  induction sizes generalizing i trials with
  | nil =>
    cases done
    exact looks_done []
  | cons count rest ih =>
    have own : (fun place : Nat × Nat => plan.trialAt (start place.1) place.2) ∘ (i, ·) =
      plan.trialAt (start i) := rfl
    rw [placesFrom_cons, List.mapM_append, List.mapM_map, own] at done
    obtain ⟨batch, first, done⟩ := bind_eq_ok done
    obtain ⟨others, last, done⟩ := bind_eq_ok done
    cases done
    have counted : ((count :: rest).map fun count => 1 + (count + every - 1) / every).sum =
        1 + (looksWithin every count 0 +
          ((rest.map fun count => 1 + (count + every - 1) / every).sum + 0)) := by
      rw [List.map_cons, List.sum_cons, looksWithin_eq positive]
      omega
    rw [inlineFrom_cons, counted]
    refine looks_look.andThen ((looks_batchFrom positive 0 first).andThen ?_)
    exact (ih (i + 1) last).andThen (looks_done (batch ++ others))

/-- One worker does the batches one after the other. -/
theorem spreadTrials_inline {schedule : Schedule} (one : schedule.workers.isOne)
    (signal : Option Signal) (iterations : Nat) :
    spreadTrials plan start signal schedule iterations =
      runAround signal (inlineFrom plan start signal schedule.checkInterval 0
        (batchSizes iterations schedule.batchSize)) := by
  have batches (sizes : List Nat) : spreadBatches plan start signal schedule sizes =
      inlineFrom plan start signal schedule.checkInterval 0 sizes := by
    simp [spreadBatches, Schedule.isInline, one]
  rw [spreadTrials, batches]

/-- The rows of a run, out of the trials of its batches. -/
theorem mapM_places {batchSize : Nat} (sized : 1 ≤ batchSize) {iterations : Nat}
    {rows : List (Trial α)}
    (done : (List.range iterations).mapM (plan.rowAt start batchSize) = .ok rows) :
    ((placesFrom 0 (batchSizes iterations batchSize)).mapM fun place =>
      plan.trialAt (start place.1) place.2) = .ok rows := by
  rw [places_batchSizes iterations sized, List.mapM_map]
  exact done

theorem isEmpty_rows {batchSize iterations : Nat} (some_trial : 1 ≤ iterations)
    {rows : List (Trial α)}
    (done : (List.range iterations).mapM (plan.rowAt start batchSize) = .ok rows) :
    rows.isEmpty = false := by
  have count := length_of_mapM done
  cases rows with
  | nil => simp at count; omega
  | cons => rfl

/-- **A run makes its looks one by one**, and gives its rows unless one of them stops it. -/
theorem looks_spreadTrials {schedule : Schedule} (one : schedule.workers.isOne) {every : Nat}
    (interval : schedule.checkInterval = .whole every) (positive : 1 ≤ every)
    (sized : 1 ≤ schedule.batchSize) {iterations : Nat} (some_trial : 1 ≤ iterations)
    {rows : List (Trial α)}
    (done : (List.range iterations).mapM (plan.rowAt start schedule.batchSize) = .ok rows) :
    Looks signal (spreadTrials plan start (some signal) schedule iterations)
      (looksOf iterations schedule.batchSize every) rows := by
  have last : Looks signal (fun looks => if rows.isEmpty then (.error .noTrials, looks)
      else (.ok rows, looks) : Step α (List (Trial α))) 0 rows := by
    simpa [isEmpty_rows some_trial done] using looks_done rows
  have counted : looksOf iterations schedule.batchSize every =
      1 + (((batchSizes iterations schedule.batchSize).map
        fun count => 1 + (count + every - 1) / every).sum + (1 + 0)) := by
    rw [looksOf]
    omega
  rw [spreadTrials_inline one, runAround, interval, counted]
  refine looks_look.andThen ((looks_inlineFrom positive 0 (mapM_places sized done)).andThen ?_)
  exact looks_look.andThen last

/-- Without a token there is nothing to look at. -/
theorem spreadTrials_unwatched {schedule : Schedule} (one : schedule.workers.isOne)
    (sized : 1 ≤ schedule.batchSize) {iterations : Nat} (some_trial : 1 ≤ iterations)
    {rows : List (Trial α)}
    (done : (List.range iterations).mapM (plan.rowAt start schedule.batchSize) = .ok rows)
    (looks : Nat) : (spreadTrials plan start none schedule iterations looks).1 = .ok rows := by
  have quiet : Undisturbed none schedule.checkInterval := undisturbed_none _
  have some_row : (.ok rows : Except (RunError α) (List (Trial α))) ≠ .ok [] := by
    rintro ⟨⟩
    cases isEmpty_rows some_trial done
  rw [spreadTrials_inline one]
  refine runAround_fst quiet (fun looks => ?_) some_row looks
  rw [inlineFrom_fst quiet, mapM_places sized done]
  rfl

/-! ## §4 Tokens -/

/-- What the looks of a run find where the token and the time are other ones at each of them. -/
def observed (token : Nat → CancellationToken) (clock : Nat → Float) : Signal :=
  fun look => (token look).check (clock look)

/-- Look `k` is the first at which the token is cancelled or has expired. -/
def FirstCancelled (token : Nat → CancellationToken) (clock : Nat → Float) (k : Nat) : Prop :=
  1 ≤ k ∧ (token k).isCancelled (clock k) ∧ ∀ j, 1 ≤ j → j < k → ¬ (token j).isCancelled (clock j)

/-- Why a token that is cancelled, or else has expired, stops a run. -/
def CancellationToken.reason (token : CancellationToken) : Stop :=
  if token.cancelled then .cancelled else .expired

theorem check_eq_none {token : CancellationToken} {now : Float} (runs : ¬ token.isCancelled now) :
    token.check now = none := by
  simp only [CancellationToken.isCancelled, Bool.or_eq_true, not_or] at runs
  simp [CancellationToken.check, runs]

theorem check_eq_reason {token : CancellationToken} {now : Float} (stopped : token.isCancelled now) :
    token.check now = some token.reason := by
  simp only [CancellationToken.isCancelled, Bool.or_eq_true] at stopped
  unfold CancellationToken.check CancellationToken.reason
  by_cases cancelled : token.cancelled
  · simp [cancelled]
  · simp [cancelled, stopped.resolve_left cancelled]

/-- **What a token does to a run**, for one worker and a plan whose trials do not fail. The run has
`looksOf` looks. A token that is first cancelled or expired at look `k` stops it there, after
exactly `k` looks, if `k` is one of them, with having been cancelled as the reason before having
expired. A token that is first cancelled or expired behind them, or never, leaves the rows of a run
without a token, and all looks are made. -/
theorem spreadTrials_looks (plan : Plan α) (start : Nat → σ) {schedule : Schedule}
    (one : schedule.workers.isOne) {every : Nat}
    (interval : schedule.checkInterval = .whole every) (positive : 1 ≤ every)
    (sized : 1 ≤ schedule.batchSize) {iterations : Nat} (some_trial : 1 ≤ iterations)
    (complete : ∀ i < iterations, ∃ trial, plan.rowAt start schedule.batchSize i = .ok trial) :
    ∃ rows, (spreadTrials plan start none schedule iterations 0).1 = .ok rows ∧
      ∀ (token : Nat → CancellationToken) (clock : Nat → Float),
        (∀ k, FirstCancelled token clock k →
          spreadTrials plan start (some (observed token clock)) schedule iterations 0 =
            if k ≤ looksOf iterations schedule.batchSize every then
              (.error (.stopped (token k).reason), k)
            else (.ok rows, looksOf iterations schedule.batchSize every)) ∧
        ((∀ k, ¬ FirstCancelled token clock k) →
          spreadTrials plan start (some (observed token clock)) schedule iterations 0 =
            (.ok rows, looksOf iterations schedule.batchSize every)) := by
  obtain ⟨rows, done⟩ : ∃ rows,
      (List.range iterations).mapM (plan.rowAt start schedule.batchSize) = .ok rows :=
    exists_mapM fun i member => complete i (List.mem_range.mp member)
  refine ⟨rows, spreadTrials_unwatched one sized some_trial done 0, fun token clock => ?_⟩
  have walk : Looks (observed token clock)
      (spreadTrials plan start (some (observed token clock)) schedule iterations)
      (looksOf iterations schedule.batchSize every) rows :=
    looks_spreadTrials one interval positive sized some_trial done
  constructor
  · intro k first
    obtain ⟨inside, stopped, earlier⟩ := first
    have silent (j : Nat) (behind : 0 < j) (below : j < k) : observed token clock j = none :=
      check_eq_none (earlier j behind below)
    split
    · next within =>
      exact walk.stops 0 k (token k).reason ⟨inside, check_eq_reason stopped, silent⟩ (by omega)
    · next late =>
      have passed := walk.passes 0 fun j behind below => silent j behind (by omega)
      rwa [Nat.zero_add] at passed
  · intro never
    have silent (j : Nat) (behind : 0 < j) : ¬ (token j).isCancelled (clock j) := by
      induction j using Nat.strong_induction_on with
      | _ j ih =>
        intro stopped
        exact never j ⟨behind, stopped, fun i inside below => ih i below inside⟩
    have passed := walk.passes 0 fun j behind _ => check_eq_none (silent j behind)
    rwa [Nat.zero_add] at passed

/-- A token that is cancelled just before look `k`. -/
def cancelledFrom (k : Nat) : Nat → CancellationToken := fun look => { cancelled := k ≤ look }

/-- The theorem at a run of three trials in batches of two, which has six looks: cancelled at the
fourth it stops there, cancelled at the seventh it is complete. -/
theorem spreadTrials_looks_steady :
    ∃ rows, (spreadTrials steadyPlan (fun i => (⟨[], i⟩ : Listed Float)) none oneWorker 3 0).1 =
        .ok rows ∧
      spreadTrials steadyPlan (fun i => (⟨[], i⟩ : Listed Float))
        (some (observed (cancelledFrom 4) fun _ => 0)) oneWorker 3 0 =
          (.error (.stopped .cancelled), 4) ∧
      spreadTrials steadyPlan (fun i => (⟨[], i⟩ : Listed Float))
        (some (observed (cancelledFrom 7) fun _ => 0)) oneWorker 3 0 = (.ok rows, 6) := by
  obtain ⟨rows, unwatched, watched⟩ :=
    spreadTrials_looks steadyPlan (fun i => (⟨[], i⟩ : Listed Float))
      (rfl : oneWorker.workers.isOne) (rfl : oneWorker.checkInterval = .whole ((250 : Nat) : Int))
      (by decide) (by decide) (by decide : 1 ≤ 3) (fun _ _ => steadyPlan_trial _)
  have first (k : Nat) (inside : 1 ≤ k) :
      FirstCancelled (cancelledFrom k) (fun _ => 0) k := by
    refine ⟨inside, by simp [CancellationToken.isCancelled, cancelledFrom], fun j _ below => ?_⟩
    have early : ¬ k ≤ j := by omega
    simp [CancellationToken.isCancelled, CancellationToken.isExpired, cancelledFrom, early]
  have total : looksOf 3 oneWorker.batchSize 250 = 6 := by decide
  have stops := (watched (cancelledFrom 4) fun _ => 0).1 4 (first 4 (by decide))
  have passes := (watched (cancelledFrom 7) fun _ => 0).1 7 (first 7 (by decide))
  rw [total] at stops passes
  exact ⟨rows, unwatched, stops, passes⟩

end BusinessCase
