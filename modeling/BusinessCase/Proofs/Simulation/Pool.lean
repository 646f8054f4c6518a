/-
BusinessCase.Proofs.Simulation.Pool — what holds of a pool at any time.

Whatever the order in which workers take up tasks and finish them, and however
often a wait runs out, a task that was handed out is in one place and in one
place only, and what was taken are the results of the first tasks in order. A
pool comes to its end: until then something can happen, and there are no more
than four events for each task, apart from waits that run out.

  §1 Events  — what each event makes of a state.
  §2 States  — `State.Sound`, and that one event keeps it.
  §3 Courses — any course of events; `State.left` bounds it.
  §4 Ends    — what comes out, and that it does.
-/
import BusinessCase.Proofs.Steps
import BusinessCase.Simulation.Pool
import Mathlib.Data.List.Basic

namespace BusinessCase.Pool

variable {ε β : Type} {work : Work ε β} {s s' : State ε β} {event : Event}

/-! ## §1 Events -/

theorem submit_eq_some_iff : s.next? work .submit = some s' ↔ s.submitted < work.count ∧
    { s with submitted := s.submitted + 1, waiting := s.waiting ++ [s.submitted] } = s' := by
  simp [State.next?]

theorem start_eq_some_iff {i : Nat} : s.next? work (.start i) = some s' ↔
    (i ∈ s.waiting ∧ s.running.length < work.seats) ∧
      { s with waiting := s.waiting.erase i, running := i :: s.running } = s' := by
  simp [State.next?]

theorem finish_eq_some_iff {i : Nat} : s.next? work (.finish i) = some s' ↔ i ∈ s.running ∧
    { s with running := s.running.erase i, finished := (i, work.task i) :: s.finished } = s' := by
  simp [State.next?]

theorem isCollecting_iff : s.isCollecting work = true ↔
    s.submitted = work.count ∧ s.raised = none ∧ s.collected.length < work.count := by
  simp [State.isCollecting, and_assoc]

theorem collect_eq_some_iff : s.next? work .collect = some s' ↔
    (s.submitted = work.count ∧ s.raised = none ∧ s.collected.length < work.count) ∧
      ∃ result, s.finished.lookup s.collected.length = some result ∧ s.take result = s' := by
  simp [State.next?, isCollecting_iff]

/-- Nothing is moved by a wait that runs out. -/
theorem timeout_eq_some (happened : s.next? work .timeout = some s') :
    ∃ look, work.onTimeout = some look ∧ s.afterLook (look s.looks) = s' := by
  simp only [State.next?, Option.ite_none_right_eq_some, Option.map_eq_some_iff] at happened
  exact happened.2

/-! ## §2 States -/

/-- No look upon a wait that has run out ever stops the run. -/
def Work.Patient (work : Work ε β) : Prop :=
  ∀ look, work.onTimeout = some look → ∀ looks, (look looks).1 = .ok ()

/-- What holds of a pool at any time. -/
structure State.Sound (work : Work ε β) (s : State ε β) : Prop where
  within : s.submitted ≤ work.count
  /-- Until the rest is given up, every task that was handed out is in one place, and only there. -/
  placed : s.raised = none →
    (s.waiting ++ (s.running ++ s.finished.map Prod.fst)).Perm (List.range s.submitted)
  results : ∀ entry ∈ s.finished, entry.2 = work.task entry.1
  /-- What was taken are the results of the first tasks, in their order. -/
  taken : (List.range s.collected.length).mapM work.task = .ok s.collected
  takenWithin : s.collected.length ≤ work.count
  /-- The rest is given up for the first task that fails. -/
  raises : ∀ e, s.raised = some e → (List.range work.count).mapM work.task = .error e

theorem sound_start : State.Sound work ({} : State ε β) where
  within := Nat.zero_le _
  placed _ := by simp
  results := by simp
  taken := rfl
  takenWithin := Nat.zero_le _
  raises _ raised := by simp at raised

/-- The result that is found under a number is that of the task. -/
theorem State.Sound.lookup (sound : s.Sound work) {i : Nat} {result : Except ε β}
    (found : s.finished.lookup i = some result) : result = work.task i := by
  obtain ⟨before, after, listed, -⟩ := List.lookup_eq_some_iff.mp found
  exact sound.results (i, result) (by simp [listed])

/-- The results of the first tasks and of one more. -/
theorem mapM_range_succ {task : Nat → Except ε β} {count : Nat} {results : List β} {result : β}
    (done : (List.range count).mapM task = .ok results) (next : task count = .ok result) :
    (List.range (count + 1)).mapM task = .ok (results ++ [result]) := by
  simp [List.range_succ, List.mapM_append, done, next, bind, Except.bind, pure, Except.pure]

/-- The first task that fails decides. -/
theorem mapM_range_error {task : Nat → Except ε β} {count first : Nat} {results : List β} {e : ε}
    (done : (List.range first).mapM task = .ok results) (failed : task first = .error e)
    (below : first < count) : (List.range count).mapM task = .error e := by
  obtain ⟨more, rfl⟩ : ∃ more, count = first + (more + 1) := ⟨count - first - 1, by omega⟩
  simp [List.range_add, List.range_succ_eq_map, List.mapM_append, done, failed, bind, Except.bind]

/-- A task that is handed out waits. -/
theorem State.Sound.submit (sound : s.Sound work) (more : s.submitted < work.count) :
    State.Sound work
      { s with submitted := s.submitted + 1, waiting := s.waiting ++ [s.submitted] } where
  within := more
  placed kept := by
    have moved : (s.waiting ++ [s.submitted] ++ (s.running ++ s.finished.map Prod.fst)).Perm
        (s.submitted :: (s.waiting ++ (s.running ++ s.finished.map Prod.fst))) := by
      simp [List.perm_middle]
    rw [List.range_succ]
    exact moved.trans (((sound.placed kept).cons _).trans (List.perm_append_singleton _ _).symm)
  results := sound.results
  taken := sound.taken
  takenWithin := sound.takenWithin
  raises := sound.raises

theorem State.Sound.start (sound : s.Sound work) {i : Nat} (member : i ∈ s.waiting) :
    State.Sound work { s with waiting := s.waiting.erase i, running := i :: s.running } where
  within := sound.within
  placed kept := by
    have moved : (s.waiting.erase i ++ (i :: s.running ++ s.finished.map Prod.fst)).Perm
        (s.waiting ++ (s.running ++ s.finished.map Prod.fst)) := by
      rw [List.cons_append]
      exact List.perm_middle.trans ((List.perm_cons_erase member).symm.append_right _)
    exact moved.trans (sound.placed kept)
  results := sound.results
  taken := sound.taken
  takenWithin := sound.takenWithin
  raises := sound.raises

theorem State.Sound.finish (sound : s.Sound work) {i : Nat} (member : i ∈ s.running) :
    State.Sound work
      { s with running := s.running.erase i, finished := (i, work.task i) :: s.finished } where
  within := sound.within
  placed kept := by
    have moved : (s.running.erase i ++ i :: s.finished.map Prod.fst).Perm
        (s.running ++ s.finished.map Prod.fst) :=
      List.perm_middle.trans ((List.perm_cons_erase member).symm.append_right _)
    exact (moved.append_left _).trans (sound.placed kept)
  results := by
    intro entry among
    rcases List.mem_cons.mp among with rfl | earlier
    · rfl
    · exact sound.results entry earlier
  taken := sound.taken
  takenWithin := sound.takenWithin
  raises := sound.raises

/-- The result that is taken is that of the next task in order. -/
theorem State.Sound.collect (sound : s.Sound work) (below : s.collected.length < work.count)
    {result : Except ε β} (found : s.finished.lookup s.collected.length = some result) :
    (s.take result).Sound work := by
  have own := sound.lookup found
  cases result with
  | ok made =>
    have taken := mapM_range_succ sound.taken own.symm
    refine ⟨sound.within, sound.placed, sound.results, ?_, ?_, sound.raises⟩
    · simpa [State.take] using taken
    · simpa [State.take] using Nat.succ_le_of_lt below
  | error e =>
    refine ⟨sound.within, ?_, sound.results, sound.taken, sound.takenWithin, ?_⟩
    · intro raised
      simp [State.take, State.giveUp] at raised
    · intro fault raised
      have same : e = fault := by simpa [State.take, State.giveUp] using raised
      rw [← same]
      exact mapM_range_error sound.taken own.symm below

theorem State.Sound.afterLook (sound : s.Sound work) {outcome : Except ε Unit × Nat}
    (silent : outcome.1 = .ok ()) : (s.afterLook outcome).Sound work := by
  obtain ⟨_, looks⟩ := outcome
  dsimp only at silent
  subst silent
  exact ⟨sound.within, sound.placed, sound.results, sound.taken, sound.takenWithin, sound.raises⟩

/-- **One event keeps a pool sound.** -/
theorem State.Sound.next (patient : work.Patient) (sound : s.Sound work)
    (happened : s.next? work event = some s') : s'.Sound work := by
  cases event with
  | submit =>
    obtain ⟨more, rfl⟩ := submit_eq_some_iff.mp happened
    exact sound.submit more
  | start i =>
    obtain ⟨⟨member, -⟩, rfl⟩ := start_eq_some_iff.mp happened
    exact sound.start member
  | finish i =>
    obtain ⟨member, rfl⟩ := finish_eq_some_iff.mp happened
    exact sound.finish member
  | collect =>
    obtain ⟨⟨-, -, below⟩, result, found, rfl⟩ := collect_eq_some_iff.mp happened
    exact sound.collect below found
  | timeout =>
    obtain ⟨look, waits, rfl⟩ := timeout_eq_some happened
    exact sound.afterLook (patient look waits s.looks)

/-! ## §3 Courses -/

/-- A bound on what can still happen, apart from waits that run out: a task is handed out, taken up,
finished, and its result is taken. -/
def State.left (work : Work ε β) (s : State ε β) : Nat :=
  3 * (work.count - s.submitted) + 2 * s.waiting.length + s.running.length +
    if s.raised.isNone then work.count - s.collected.length else 0

/-- **Every event brings the end nearer**, but for a wait that runs out. -/
theorem left_next (happened : s.next? work event = some s') :
    s'.left work + (if event ≠ .timeout then 1 else 0) ≤ s.left work := by
  cases event with
  | submit =>
    obtain ⟨more, rfl⟩ := submit_eq_some_iff.mp happened
    simp [State.left]
    omega
  | start i =>
    obtain ⟨⟨member, -⟩, rfl⟩ := start_eq_some_iff.mp happened
    have some_waits := List.length_pos_of_mem member
    simp [State.left, List.length_erase_of_mem member]
    omega
  | finish i =>
    obtain ⟨member, rfl⟩ := finish_eq_some_iff.mp happened
    have some_runs := List.length_pos_of_mem member
    simp [State.left, List.length_erase_of_mem member]
    omega
  | collect =>
    obtain ⟨⟨-, kept, below⟩, result, -, rfl⟩ := collect_eq_some_iff.mp happened
    cases result with
    | ok made =>
      simp [State.left, State.take, kept]
      omega
    | error e =>
      simp [State.left, State.take, State.giveUp, kept]
      omega
  | timeout =>
    obtain ⟨look, -, rfl⟩ := timeout_eq_some happened
    rcases look s.looks with ⟨_ | _, looks⟩
    · simp [State.left, State.afterLook, State.giveUp]
      omega
    · simp [State.left, State.afterLook]

/-- A course of events keeps a pool sound, and is as short as the bound says. -/
theorem State.Sound.run (patient : work.Patient) (sound : s.Sound work) {events : List Event}
    (happened : events.foldlM (State.next? work) s = some s') :
    s'.Sound work ∧ s'.left work + events.countP (· ≠ .timeout) ≤ s.left work := by
  induction events generalizing s with
  | nil =>
    cases happened
    simp [sound]
  | cons event rest ih =>
    rw [List.foldlM_cons] at happened
    obtain ⟨between, first, others⟩ := Option.bind_eq_some_iff.mp happened
    obtain ⟨soundAfter, bound⟩ := ih (sound.next patient first) others
    have nearer := left_next first
    refine ⟨soundAfter, ?_⟩
    rw [List.countP_cons]
    simp only [decide_eq_true_eq]
    omega

theorem sound_after (patient : work.Patient) {events : List Event}
    (happened : State.after? work events = some s) : s.Sound work :=
  (sound_start.run patient happened).1

/-- **A pool comes to its end**: no more than four events happen for each task, apart from waits
that run out. -/
theorem countP_after (patient : work.Patient) {events : List Event}
    (happened : State.after? work events = some s) :
    events.countP (· ≠ .timeout) ≤ 4 * work.count := by
  have bound := (sound_start.run patient happened).2
  have whole : State.left work ({} : State ε β) = 4 * work.count := by
    simp [State.left]
    omega
  omega

/-! ## §4 Ends -/

/-- **What comes out of a pool** are the results of all tasks in the order of their numbers, or the
failure of the first task that fails. -/
theorem State.Sound.result (sound : s.Sound work) {outcome : Except ε (List β)}
    (ended : s.result? work = some outcome) :
    outcome = (List.range work.count).mapM work.task := by
  simp only [State.result?, Option.ite_none_left_eq_some] at ended
  obtain ⟨-, ended⟩ := ended
  cases raised : s.raised with
  | some e =>
    simp only [raised, Option.some.injEq] at ended
    rw [← ended, sound.raises e raised]
  | none =>
    simp only [raised, Option.ite_none_right_eq_some, Option.some.injEq] at ended
    obtain ⟨all, rfl⟩ := ended
    rw [← all, sound.taken]

/-- **A pool does not get stuck**: until something comes out of it, there is an event that can happen
and is no wait that runs out. -/
theorem State.Sound.exists_next (sound : s.Sound work) (seats : 1 ≤ work.seats)
    (ongoing : s.result? work = none) : ∃ event ≠ .timeout, (s.next? work event).isSome := by
  by_cases more : s.submitted < work.count
  · exact ⟨.submit, by simp, by simp [State.next?, more]⟩
  have all : s.submitted = work.count := by
    have within := sound.within
    omega
  cases running : s.running with
  | cons i rest => exact ⟨.finish i, by simp, by simp [State.next?, running]⟩
  | nil =>
    cases waiting : s.waiting with
    | cons i rest => exact ⟨.start i, by simp, by simp [State.next?, running, waiting]; omega⟩
    | nil =>
      cases raised : s.raised with
      | some e => simp [State.result?, running, waiting, raised] at ongoing
      | none =>
        have below : s.collected.length < work.count := by
          have within := sound.takenWithin
          simp [State.result?, running, waiting, raised] at ongoing
          omega
        -- nothing waits or runs, so the task whose result is next is among those that are finished
        have placed := sound.placed raised
        rw [waiting, running, List.nil_append, List.nil_append, all] at placed
        have member : s.collected.length ∈ s.finished.map Prod.fst :=
          placed.mem_iff.mpr (List.mem_range.mpr below)
        obtain ⟨entry, among, same⟩ := List.mem_map.mp member
        have found : (s.finished.lookup s.collected.length).isSome :=
          List.lookup_isSome_iff.mpr ⟨entry, among, by simp [same]⟩
        have collecting : s.isCollecting work := isCollecting_iff.mpr ⟨all, raised, below⟩
        exact ⟨.collect, by simp, by simpa [State.next?, collecting] using found⟩

end BusinessCase.Pool
