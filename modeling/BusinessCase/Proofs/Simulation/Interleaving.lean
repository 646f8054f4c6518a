/-
BusinessCase.Proofs.Simulation.Interleaving — several workers at the same time.

A run with several workers gives the rows of a run with one worker, whatever the
order in which they take up the batches and finish them, as long as they get
the plan and have room for its formulas. Where a plan is nested too deep to be
sent to workers with memory of their own, there are no rows at all.

  §1 Runs    — looks that stop nothing, and what is between them.
  §2 Batches — a pool against batches one after the other.
  §3 Whole   — `spreadTrials_rows`.
  §4 Towers  — a plan that cannot be sent.
-/
import BusinessCase.Proofs.Simulation.Looks
import BusinessCase.Proofs.Simulation.Pool

namespace BusinessCase

open Formula Scalar

/-! ## §1 Runs -/

/-- The token, if there is one, never stops a run. -/
def NeverStops (signal : Option Signal) : Prop :=
  ∀ token, signal = some token → ∀ look, token look = none

variable {σ α : Type} [UniformSource σ α] [Scalar α]
variable {plan : Plan α} {start : Nat → σ} {signal : Option Signal} {schedule : Schedule}
variable {interval : Interval}

section Around

variable {α : Type} {signal : Option Signal}

theorem look_silent (silent : NeverStops signal) (looks : Nat) :
    (look signal looks : Except (RunError α) Unit × Nat).1 = .ok () := by
  unfold look
  cases signal with
  | none => rfl
  | some token => simp [silent token rfl]

/-- Rows that come out of a run are those of its batches. -/
theorem runAround_eq_ok {batches : Step α (List (Trial α))} {looks : Nat} {rows : List (Trial α)}
    (ran : (runAround signal batches looks).1 = .ok rows) :
    rows ≠ [] ∧ ∃ looks, (batches looks).1 = .ok rows := by
  obtain ⟨-, -, ran⟩ := Step.andThen_eq_ok ran
  obtain ⟨trials, done, ran⟩ := Step.andThen_eq_ok ran
  obtain ⟨-, -, ran⟩ := Step.andThen_eq_ok ran
  cases trials with
  | nil => simp at ran
  | cons trial rest =>
    have same : trial :: rest = rows := by simpa using ran
    exact ⟨by simp [← same], _, same ▸ done⟩

end Around

/-- Where looks cannot be made at the interval, a batch with a trial fails. -/
theorem batchFrom_unusable {token : Signal} (unusable : ¬ interval.Usable) {count : Nat} {s : σ}
    {looks : Nat} {trials : List (Trial α)}
    (ran : (batchFrom plan (some token) interval count 0 s looks).1 = .ok trials) :
    trials = [] := by
  obtain ⟨e, undue⟩ : ∃ e, interval.due 0 = (.error e : Except (RunError α) Bool) := by
    cases interval with
    | whole count => exact ⟨.zeroInterval, by simpa [Interval.Usable, Interval.due] using unusable⟩
    | decimal x => exact ⟨.zeroInterval, by simpa [Interval.Usable, Interval.due] using unusable⟩
    | unusable => exact ⟨.unusable, rfl⟩
  cases count with
  | zero =>
    have none : [] = trials := by simpa [batchFrom] using ran
    exact none.symm
  | succ count => simp [batchFrom, lookAt, undue] at ran

theorem inlineFrom_unusable {token : Signal} (unusable : ¬ interval.Usable) {i : Nat}
    {sizes : List Nat} {looks : Nat} {trials : List (Trial α)}
    (ran : (inlineFrom plan start (some token) interval i sizes looks).1 = .ok trials) :
    trials = [] := by
  induction sizes generalizing i looks trials with
  | nil =>
    have none : [] = trials := by simpa [inlineFrom] using ran
    exact none.symm
  | cons count rest ih =>
    rw [inlineFrom_cons] at ran
    obtain ⟨-, -, ran⟩ := Step.andThen_eq_ok ran
    obtain ⟨batch, first, ran⟩ := Step.andThen_eq_ok ran
    obtain ⟨others, last, ran⟩ := Step.andThen_eq_ok ran
    have whole : batch ++ others = trials := by simpa using ran
    rw [← whole, batchFrom_unusable unusable first, ih last, List.append_nil]

/-! ## §2 Batches -/

/-- The same schedule with one worker. -/
def Schedule.inline (schedule : Schedule) : Schedule := { schedule with workers := .whole 1 }

/-- A run with one worker that gives rows under a token that never stops it is undisturbed. -/
theorem undisturbed_of_inline (silent : NeverStops signal) {iterations looks : Nat}
    {rows : List (Trial α)}
    (inline : (spreadTrials plan start signal schedule.inline iterations looks).1 = .ok rows) :
    Undisturbed signal schedule.checkInterval := by
  intro token given
  refine ⟨silent token given, ?_⟩
  subst given
  rw [spreadTrials_inline (by rfl)] at inline
  obtain ⟨some_row, looks, done⟩ := runAround_eq_ok inline
  by_contra unusable
  exact some_row (inlineFrom_unusable unusable done)

/-- The trials of all batches, one after the other; the first that fails decides. -/
def trialsOf (plan : Plan α) (start : Nat → σ) (sizes : List Nat) :
    Except (RunError α) (List (Trial α)) :=
  ((placesFrom 0 sizes).mapM fun place => plan.trialAt (start place.1) place.2).mapError .trial

theorem trialsOf_inline (silent : NeverStops signal) {iterations looks : Nat}
    {rows : List (Trial α)}
    (inline : (spreadTrials plan start signal schedule.inline iterations looks).1 = .ok rows) :
    rows ≠ [] ∧ trialsOf plan start (batchSizes iterations schedule.batchSize) = .ok rows := by
  have quiet := undisturbed_of_inline silent inline
  rw [spreadTrials_inline (by rfl)] at inline
  obtain ⟨some_row, looks, done⟩ := runAround_eq_ok inline
  exact ⟨some_row, (inlineFrom_fst quiet 0 _ looks).symm.trans done⟩

/-- They are the same wherever the formulas have room. -/
theorem trialsOf_of_hasRoom {t t' : Nat} (room : (plan.above t').hasRoom) {sizes : List Nat}
    {rows : List (Trial α)} (done : trialsOf (plan.above t) start sizes = .ok rows) :
    trialsOf (plan.above t') start sizes = .ok rows :=
  congrArg (Except.mapError RunError.trial) (mapM_eq_ok_imp
    (fun _ _ _ ended => trialAt_of_hasRoom room ended) (mapError_eq_ok done))

theorem patient_poolWork (silent : NeverStops signal) (sizes : List Nat) (seats : Nat) :
    (poolWork plan start signal schedule sizes seats).Patient := by
  intro onLook waits looks
  obtain ⟨token, given, rfl⟩ := Option.map_eq_some_iff.mp waits
  exact look_silent (given ▸ silent) looks

/-- **The results of a pool in the order of their numbers are the trials of the batches.** -/
theorem poolWork_mapM (quiet : Undisturbed signal schedule.checkInterval)
    (sent : schedule.canSend plan) (sizes : List Nat) (seats : Nat) :
    ((List.range sizes.length).mapM (poolWork plan start signal schedule sizes seats).task).map
      List.flatten = trialsOf (schedule.atWorker plan) start sizes := by
  have all : ∀ i < sizes.length, i ∈ List.range sizes.length := fun i => List.mem_range.mpr
  have pooled : (runPooled (schedule.atWorker plan) start (schedule.shared signal)
      schedule.checkInterval sizes (List.range sizes.length) 0).1 =
        trialsOf (schedule.atWorker plan) start sizes :=
    runPooled_fst (undisturbed_shared quiet) sizes all 0
  rw [runPooled, gather, Pool.run_eq all, List.mapM_map] at pooled
  simp only [poolWork, sent, if_true]
  exact pooled

/-- The results of the first tasks come first among all results. -/
theorem isPrefix_of_mapM {ε β : Type} {task : Nat → Except ε β} {few many : Nat} (le : few ≤ many)
    {first all : List β} (done : (List.range few).mapM task = .ok first)
    (whole : (List.range many).mapM task = .ok all) : first <+: all := by
  obtain ⟨more, rfl⟩ : ∃ more, many = few + more := ⟨many - few, by omega⟩
  rw [List.range_add, List.mapM_append, done] at whole
  obtain ⟨_, same, whole⟩ := bind_eq_ok whole
  obtain ⟨others, -, whole⟩ := bind_eq_ok whole
  cases same
  exact ⟨others, Except.ok.inj whole⟩

/-! ## §3 Whole -/

/-- Do the workers that do so many batches of a plan get it, and have room for its formulas? -/
def Schedule.serves (schedule : Schedule) (batches : Nat) (plan : Plan α) : Bool :=
  schedule.isInline batches || (schedule.canSend plan && (schedule.atWorker plan).hasRoom)

/-- What one worker does, workers in a pool do too. -/
theorem trialsOf_atWorker (room : (schedule.atWorker plan).hasRoom) {sizes : List Nat}
    {rows : List (Trial α)} (done : trialsOf plan start sizes = .ok rows) :
    trialsOf (schedule.atWorker plan) start sizes = .ok rows := by
  unfold Schedule.atWorker at room ⊢
  split at room <;> exact trialsOf_of_hasRoom (t := plan.taken) room done

theorem batchSizes_ne_nil_of_rows {sizes : List Nat} {rows : List (Trial α)} (some_row : rows ≠ [])
    (done : trialsOf plan start sizes = .ok rows) : sizes ≠ [] := by
  rintro rfl
  exact some_row (Except.ok.inj done).symm

/-- **Several workers give what one gives.** Let the token, if there is one, never stop the run, and
let a run with one worker give rows. Then the run gives the same rows however it is spread over
workers, as long as these get the plan and have room for its formulas. Whatever happens in a pool of
such workers, in any order: no batch fails; every batch that was handed out waits, is worked on or
is finished, and only one of these; the rows that were taken so far are the first ones in order;
apart from waits that run out there are no more than four events for each batch, and until the pool
is at its end one of them can happen. What it gives at its end are the rows. -/
theorem spreadTrials_rows (plan : Plan α) (start : Nat → σ) {signal : Option Signal}
    (silent : NeverStops signal) {schedule : Schedule}
    (starts : ∀ batches, schedule.workers.canStart schedule.executor batches)
    {iterations looks : Nat} (served : schedule.serves (schedule.batches iterations) plan)
    {rows : List (Trial α)}
    (inline : (spreadTrials plan start signal schedule.inline iterations looks).1 = .ok rows) :
    (∀ looks, (spreadTrials plan start signal schedule iterations looks).1 = .ok rows) ∧
    (schedule.isInline (schedule.batches iterations) = false →
      ∀ seats, 1 ≤ seats → ∀ (events : List Pool.Event) (s : Pool.State _ _),
        let work := poolWork plan start signal schedule
          (batchSizes iterations schedule.batchSize) seats
        Pool.State.after? work events = some s →
          s.raised = none ∧
          (s.waiting ++ (s.running ++ s.finished.map Prod.fst)).Perm (List.range s.submitted) ∧
          s.collected.flatten <+: rows ∧
          events.countP (· ≠ .timeout) ≤ 4 * work.count ∧
          (s.result? work = none → ∃ event ≠ .timeout, (s.next? work event).isSome) ∧
          ∀ outcome, s.result? work = some outcome → ∀ looks looks',
            (runAround signal (fun _ => (outcome.map List.flatten, looks')) looks).1 =
              .ok rows) := by
  have quiet := undisturbed_of_inline silent inline
  obtain ⟨some_row, batches⟩ := trialsOf_inline silent inline
  have some_ok : (.ok rows : Except (RunError α) (List (Trial α))) ≠ .ok [] := by simp [some_row]
  have some_size := batchSizes_ne_nil_of_rows some_row batches
  cases pooled : schedule.isInline (schedule.batches iterations) with
  | true =>
    refine ⟨runAround_fst quiet (fun looks => ?_) some_ok, fun none => nomatch none⟩
    have there : schedule.delivers (schedule.batches iterations) plan := by
      simp [Schedule.delivers, pooled]
    rw [spreadBatches_fst quiet starts some_size there, Schedule.inUse, ← Schedule.batches, pooled]
    exact batches
  | false =>
    obtain ⟨canSend, room⟩ : schedule.canSend plan ∧ (schedule.atWorker plan).hasRoom := by
      simpa [Schedule.serves, pooled] using served
    have there : schedule.delivers (schedule.batches iterations) plan := by
      simp [Schedule.delivers, canSend]
    have spread : trialsOf (schedule.atWorker plan) start
        (batchSizes iterations schedule.batchSize) = .ok rows := trialsOf_atWorker room batches
    constructor
    · refine runAround_fst quiet (fun looks => ?_) some_ok
      rw [spreadBatches_fst quiet starts some_size there, Schedule.inUse, ← Schedule.batches, pooled]
      exact spread
    · intro _ seats positive events s work happened
      have patient : work.Patient := patient_poolWork silent _ seats
      have sound := Pool.sound_after patient happened
      have whole : ((List.range work.count).mapM work.task).map List.flatten = .ok rows :=
        (poolWork_mapM quiet canSend _ seats).trans spread
      obtain ⟨parts, results, flat⟩ := map_eq_ok whole
      have kept : s.raised = none := by
        cases raised : s.raised with
        | none => rfl
        | some e =>
          have failed := sound.raises e raised
          rw [results] at failed
          cases failed
      refine ⟨kept, sound.placed kept, ?_, Pool.countP_after patient happened,
        sound.exists_next positive, ?_⟩
      · rw [← flat]
        exact (isPrefix_of_mapM sound.takenWithin sound.taken results).flatten
      · intro outcome ended looks looks'
        refine runAround_fst quiet (fun _ => ?_) some_ok looks
        rw [sound.result ended, whole]

/-- A plan that cannot be sent to the workers of a pool gives no rows. -/
theorem spreadTrials_notSent (quiet : Undisturbed signal schedule.checkInterval)
    (starts : ∀ batches, schedule.workers.canStart schedule.executor batches) {iterations : Nat}
    (some : 1 ≤ iterations) (pooled : schedule.isInline (schedule.batches iterations) = false)
    (unsent : schedule.canSend plan = false) (looks : Nat) :
    (spreadTrials plan start signal schedule iterations looks).1 = .error .notSent := by
  have failed : (.error .notSent : Except (RunError α) (List (Trial α))) ≠ .ok [] := by simp
  refine runAround_fst quiet (fun looks => ?_) failed looks
  have some_size : (batchSizes iterations schedule.batchSize).isEmpty = false := by
    simpa using batchSizes_ne_nil some schedule.batchSize
  rw [Schedule.batches] at pooled
  simp [spreadBatches, pooled, some_size, starts, unsent]

/-- Batches of two, done by four workers that have to be sent their work. -/
def fourProcesses : Schedule := { fourWorkers with executor := .process }

/-- The second batch is finished before the first one is taken up, and a wait runs out. -/
def lateFirst : List Pool.Event :=
  [.submit, .submit, .start 1, .finish 1, .timeout, .start 0, .finish 0, .collect, .collect]

/-- The theorem at three trials of a steady plan, with a token that never stops them. -/
theorem spreadTrials_rows_steady :
    ∃ rows s outcome,
      (spreadTrials steadyPlan (fun i => (⟨[], i⟩ : Listed Float)) (some fun _ => none)
        fourProcesses.inline 3 0).1 = .ok rows ∧
      (spreadTrials steadyPlan (fun i => (⟨[], i⟩ : Listed Float)) (some fun _ => none)
        fourProcesses 3 0).1 = .ok rows ∧
      Pool.State.after? (poolWork steadyPlan (fun i => (⟨[], i⟩ : Listed Float))
        (some fun _ => none) fourProcesses (batchSizes 3 2) 4) lateFirst = some s ∧
      s.result? (poolWork steadyPlan (fun i => (⟨[], i⟩ : Listed Float))
        (some fun _ => none) fourProcesses (batchSizes 3 2) 4) = some outcome ∧
      (runAround (some fun _ => none) (fun _ => (outcome.map List.flatten, 0)) 0).1 = .ok rows := by
  have silent : NeverStops (some fun _ => none) := by
    intro token given look
    cases given
    rfl
  obtain ⟨rows, inline⟩ : ∃ rows, (spreadTrials steadyPlan (fun i => (⟨[], i⟩ : Listed Float))
      (some fun _ => none) fourProcesses.inline 3 0).1 = .ok rows := ⟨_, rfl⟩
  obtain ⟨spread, pools⟩ := spreadTrials_rows steadyPlan (fun i => (⟨[], i⟩ : Listed Float)) silent
    (fun _ => rfl) (rfl : fourProcesses.serves (fourProcesses.batches 3) steadyPlan) inline
  obtain ⟨s, outcome, happened, ended⟩ : ∃ s outcome,
      Pool.State.after? (poolWork steadyPlan (fun i => (⟨[], i⟩ : Listed Float))
        (some fun _ => none) fourProcesses (batchSizes 3 2) 4) lateFirst = some s ∧
      s.result? (poolWork steadyPlan (fun i => (⟨[], i⟩ : Listed Float))
        (some fun _ => none) fourProcesses (batchSizes 3 2) 4) = some outcome := ⟨_, _, rfl, rfl⟩
  obtain ⟨-, -, -, -, -, ends⟩ := pools rfl 4 (by decide) lateFirst s happened
  exact ⟨rows, s, outcome, inline, spread 0, happened, ended, ends outcome ended 0 0⟩

/-! ## §4 Towers -/

theorem levels_sumOfOnes (n : Nat) : (sumOfOnes n).levels = 3 * n + 3 := by
  induction n with
  | zero => simp [sumOfOnes, Expr.levels]
  | succ n ih =>
    simp [sumOfOnes, Expr.levels, ih]
    omega

theorem eval_sumOfOnes (look : String → Except EvalError Float) (n : Nat) :
    ∃ x, (sumOfOnes n).eval look = .ok x := by
  induction n with
  | zero => exact ⟨1, by simp [sumOfOnes, Expr.eval]⟩
  | succ n ih =>
    obtain ⟨x, known⟩ := ih
    exact ⟨Operator.plus.apply x 1, by simp [sumOfOnes, Expr.eval, known]⟩

/-- A steady plan with one formula. -/
def formulaPlan (e : Expr Float) : Plan Float :=
  { steadyPlan with formulas := [("total", e)], order := ["total"] }

theorem isSendable_formulaPlan (e : Expr Float) (room : Nat) :
    (formulaPlan e).isSendable room = (decide (e.levels ≤ room) && decide (2 ≤ room)) := by
  simp [Plan.isSendable, formulaPlan, steadyPlan, Value.levels]

/-- The highest sum that can be sent is one of 328 ones. -/
example : (formulaPlan (sumOfOnes 327)).isSendable 985 ∧
    ¬ (formulaPlan (sumOfOnes 328)).isSendable 985 := by
  simp [isSendable_formulaPlan, levels_sumOfOnes]

/-- What the formula of such a plan finds under its names. -/
def feeOnly : String → Except EvalError Float :=
  resolve fun name => (Table.find? [("fee", (100 : Float))] name).map Cell.number

/-- A trial does not fail where the formula has a value. -/
theorem formulaPlan_trial {e : Expr Float} {x : Float} {t : Nat}
    (known : e.outcome (t + 2) feeOnly = .ok x) (s : Listed Float) :
    ∃ trial, (((formulaPlan e).above t).trial s).1 = .ok trial := by
  have complete : ((formulaPlan e).above t).complete [("fee", 100)] =
      .ok [("fee", 100), ("total", x)] := by
    have outcome : e.outcome (((formulaPlan e).above t).taken + 2) feeOnly = .ok x := known
    have found : ((formulaPlan e).above t).formulas.find? "total" = some e := rfl
    have order : ((formulaPlan e).above t).order = ["total"] := rfl
    rw [feeOnly] at outcome
    rw [Plan.complete, order, Plan.evaluateFrom, found]
    simp only [outcome]
    rfl
  -- the formula is in no category, so the money of a trial does not depend on its value
  have money (type : CategoryType) : totalOf type [("fee", 100), ("total", x)]
      ((formulaPlan e).above t).categories = totalOf type [("fee", 100)] steadyPlan.categories := by
    cases type <;> rfl
  have settled : ∃ trial, ((formulaPlan e).above t).settle [("fee", 100)] = .ok trial := by
    simp only [Plan.settle, complete, Plan.rollUp, money]
    exact ⟨_, rfl⟩
  exact settled

/-- A plan with a formula that is too high to be sent, but can be evaluated. -/
def towerPlan : Plan Float := formulaPlan (sumOfOnes 600)

theorem towerPlan_trial {t : Nat} (low : t ≤ 300) (s : Listed Float) :
    ∃ trial, ((towerPlan.above t).trial s).1 = .ok trial := by
  obtain ⟨x, known⟩ := eval_sumOfOnes feeOnly 600
  have room : (sumOfOnes 600).fits (t + 2) = true := by
    simp [Expr.fits, places_sumOfOnes, evaluationPlaces]
    omega
  exact formulaPlan_trial ((Expr.outcome_of_fits room _).trans known) s

theorem not_canSend_towerPlan : fourProcesses.canSend towerPlan = false := by
  have high : towerPlan.isSendable 985 = false := by
    simp [towerPlan, isSendable_formulaPlan, levels_sumOfOnes]
  have levels : fourProcesses.messageLevels = 985 := rfl
  have processes : fourProcesses.executor = .process := rfl
  rw [Schedule.canSend, levels, processes, high]
  rfl

/-- No row of that plan fails with one worker. -/
theorem towerPlan_row (i : Nat) :
    ∃ trial, towerPlan.rowAt (fun i => (⟨[], i⟩ : Listed Float)) 2 i = .ok trial := by
  have own : towerPlan.above 0 = towerPlan := rfl
  exact own ▸ towerPlan_trial (by decide) _

/-- **No row of that plan fails, yet a run has none** if its workers have memory of their own,
neither a run of three trials nor one of five: the plan cannot be sent. -/
theorem towerPlan_noRows :
    (∀ i, ∃ trial, towerPlan.rowAt (fun i => (⟨[], i⟩ : Listed Float)) 2 i = .ok trial) ∧
    (∀ i, ∃ trial,
      (fourProcesses.atWorker towerPlan).rowAt (fun i => (⟨[], i⟩ : Listed Float)) 2 i =
        .ok trial) ∧
    (spreadTrials towerPlan (fun i => (⟨[], i⟩ : Listed Float)) none fourProcesses 3 0).1 =
      .error .notSent ∧
    (spreadTrials towerPlan (fun i => (⟨[], i⟩ : Listed Float)) none fourProcesses 5 0).1 =
      .error .notSent := by
  have quiet : Undisturbed none fourProcesses.checkInterval := undisturbed_none _
  have worker : towerPlan.above 14 = fourProcesses.atWorker towerPlan := rfl
  refine ⟨towerPlan_row, fun i => ?_, ?_, ?_⟩
  · rw [← worker]
    exact towerPlan_trial (by decide) _
  · exact spreadTrials_notSent quiet (fun _ => rfl) (by decide) rfl not_canSend_towerPlan 0
  · exact spreadTrials_notSent quiet (fun _ => rfl) (by decide) rfl not_canSend_towerPlan 0

/-- **Workers with memory of their own do not give what one worker gives** where a formula is too
high to be sent to them: one worker gives rows, and a pool gives up whatever happens in it. -/
theorem towerPlan_notSent :
    (∃ rows, (spreadTrials towerPlan (fun i => (⟨[], i⟩ : Listed Float)) none
      fourProcesses.inline 3 0).1 = .ok rows) ∧
    (spreadTrials towerPlan (fun i => (⟨[], i⟩ : Listed Float)) none fourProcesses 3 0).1 =
      .error .notSent ∧
    ∀ seats (events : List Pool.Event) (s : Pool.State _ _) outcome,
      let work := poolWork towerPlan (fun i => (⟨[], i⟩ : Listed Float)) none fourProcesses
        (batchSizes 3 2) seats
      Pool.State.after? work events = some s → s.result? work = some outcome →
        outcome = .error .notSent := by
  have inline : fourProcesses.inline.isInline (fourProcesses.inline.batches 3) = true := rfl
  have alone : fourProcesses.inline.inUse (fourProcesses.inline.batches 3) towerPlan = towerPlan :=
    if_pos inline
  have there : fourProcesses.inline.delivers (fourProcesses.inline.batches 3) towerPlan := by
    simp [Schedule.delivers, inline]
  have starts : ∀ batches,
      fourProcesses.inline.workers.canStart fourProcesses.inline.executor batches := fun _ => rfl
  have positive : 1 ≤ fourProcesses.inline.batchSize := by decide
  refine ⟨?_, ?_, ?_⟩
  · have rows (i : Nat) : ∃ trial,
        (fourProcesses.inline.inUse (fourProcesses.inline.batches 3) towerPlan).rowAt
          (fun i => (⟨[], i⟩ : Listed Float)) 2 i = .ok trial := by
      rw [alone]
      exact towerPlan_row i
    obtain ⟨rows, done⟩ := exists_mapM fun i (_ : i ∈ List.range 3) => rows i
    refine ⟨rows, ?_⟩
    rw [spreadTrials_fst (undisturbed_none _) starts positive (by decide : 1 ≤ 3) there]
    exact congrArg (Except.mapError RunError.trial) done
  · exact spreadTrials_notSent (undisturbed_none _) (fun _ => rfl) (by decide) rfl
      not_canSend_towerPlan 0
  · intro seats events s outcome work happened ended
    have patient : work.Patient := patient_poolWork (by simp [NeverStops]) _ seats
    have result := (Pool.sound_after patient happened).result ended
    have count : work.count = 2 := rfl
    rw [result, count]
    simp [work, poolWork, not_canSend_towerPlan, List.range_succ_eq_map, bind, Except.bind]

end BusinessCase
