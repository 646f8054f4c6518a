/-
BusinessCase.Simulation.Pool — tasks done by several workers.

Workers finish their tasks in some order that nobody controls. What each task
gives is kept under its number, and the results are collected by number, so
the order in which the tasks were finished cannot be seen.

  §1 Results — what tasks give, whatever the order in which they are finished.
  §2 Events  — `State`, what happens in a pool one after the other.
-/

namespace BusinessCase.Pool

/-! ## §1 Results -/

variable {β : Type}

/-- The results of tasks in the order in which they were finished, each with its number. -/
def finished (completion : List Nat) (task : Nat → β) : List (Nat × β) :=
  completion.map fun i => (i, task i)

/-- The results of `count` tasks by number. -/
def collect (count : Nat) (results : List (Nat × β)) : List β :=
  (List.range count).filterMap fun i => results.lookup i

/-- Does `count` tasks, which are finished in the given order. -/
def run (completion : List Nat) (count : Nat) (task : Nat → β) : List β :=
  collect count (finished completion task)

/-! ## §2 Events -/

/-- What happens in a pool. -/
inductive Event where
  /-- The next task is handed out. -/
  | submit
  /-- A worker takes up this task. -/
  | start (i : Nat)
  /-- A worker is done with this task. -/
  | finish (i : Nat)
  /-- The result that is waited for is taken. -/
  | collect
  /-- The wait for a result runs out. -/
  | timeout
  deriving DecidableEq

/-- So many tasks for a pool, whose results are waited for in order. -/
structure Work (ε β : Type) where
  /-- How many tasks can be worked on at once. -/
  seats : Nat
  count : Nat
  task : Nat → Except ε β
  /-- What is done when a wait runs out, given the looks made so far; without it no wait ends before
  its result is there. -/
  onTimeout : Option (Nat → Except ε Unit × Nat)

structure State (ε β : Type) where
  /-- How many tasks were handed out. -/
  submitted : Nat := 0
  /-- Tasks that no worker has taken up yet. -/
  waiting : List Nat := []
  running : List Nat := []
  finished : List (Nat × Except ε β) := []
  /-- The results that were taken, in order. -/
  collected : List β := []
  /-- Why the rest was given up. -/
  raised : Option ε := none
  looks : Nat := 0

namespace State

variable {ε : Type}

/-- Is a result waited for? -/
def isCollecting (work : Work ε β) (s : State ε β) : Bool :=
  s.submitted = work.count && s.raised.isNone && s.collected.length < work.count

/-- The rest is given up: what no worker has taken up is withdrawn. -/
def giveUp (s : State ε β) (e : ε) : State ε β := { s with raised := some e, waiting := [] }

/-- The result that was waited for is taken. -/
def take (s : State ε β) : Except ε β → State ε β
  | .ok result => { s with collected := s.collected ++ [result] }
  | .error e => s.giveUp e

/-- A look was made, with this outcome and that many looks in all. -/
def afterLook (s : State ε β) : Except ε Unit × Nat → State ε β
  | (.ok (), looks) => { s with looks }
  | (.error e, looks) => { s.giveUp e with looks }

/-- The state after an event, if the event can happen. -/
def next? (work : Work ε β) (s : State ε β) : Event → Option (State ε β)
  | .submit =>
    if s.submitted < work.count then
      some { s with submitted := s.submitted + 1, waiting := s.waiting ++ [s.submitted] }
    else none
  | .start i =>
    if i ∈ s.waiting ∧ s.running.length < work.seats then
      some { s with waiting := s.waiting.erase i, running := i :: s.running }
    else none
  | .finish i =>
    if i ∈ s.running then
      some { s with running := s.running.erase i, finished := (i, work.task i) :: s.finished }
    else none
  | .collect =>
    if s.isCollecting work then (s.finished.lookup s.collected.length).map s.take else none
  | .timeout =>
    if s.isCollecting work && (s.finished.lookup s.collected.length).isNone then
      work.onTimeout.map fun look => s.afterLook (look s.looks)
    else none

/-- The state after a course of events, if each of them can happen when its turn comes. -/
def after? (work : Work ε β) (events : List Event) : Option (State ε β) :=
  events.foldlM (next? work) {}

/-- What comes out once no worker is busy any more: all results, or why the rest was given up. -/
def result? (work : Work ε β) (s : State ε β) : Option (Except ε (List β)) :=
  if !(s.waiting.isEmpty && s.running.isEmpty) then none
  else match s.raised with
    | some e => some (.error e)
    | none => if s.collected.length = work.count then some (.ok s.collected) else none

end State

end BusinessCase.Pool
