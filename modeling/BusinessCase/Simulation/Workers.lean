/-
BusinessCase.Simulation.Workers — a run whose batches are done by several workers.

A run with one worker, or with one batch, does its batches itself, one after
the other. Otherwise they are the tasks of a pool, and while a result is waited
for, the run looks at its token now and then. A worker evaluates on a stack of
its own, and one with memory of its own has to be sent the plan, which does not
go into a message if it is nested too deep.

  §1 Messages — `Expr.levels`, `Value.levels`, `Plan.isSendable`.
  §2 Workers  — `Schedule.atWorker`, the plan where the workers use it.
  §3 Batches  — `poolWork`, the work that a run gives to a pool.
  §4 Whole    — `spreadTrials`.
-/
import BusinessCase.Simulation.Run

namespace BusinessCase

open Formula Scalar

/-! ## §1 Messages -/

namespace Formula.Expr

variable {α : Type}

mutual

/-- How deep a message is that carries a tree: a node, its fields and what is in them are three
levels, and the list of the arguments of a call is one more. -/
def levels : Expr α → Nat
  | number _ | reference _ | foreign => 3
  | unary _ argument => levels argument + 3
  | binary _ left right => max (levels left) (levels right) + 3
  | call _ arguments => levelsAll arguments + 4

/-- The depth of a message that carries several trees. -/
def levelsAll : List (Expr α) → Nat
  | [] => 0
  | e :: rest => max (levels e) (levelsAll rest)

end

end Formula.Expr

namespace Value

mutual

/-- How deep a message is that carries a value: a list or an object is one level, and what is in it
one more. -/
def levels : Value → Nat
  | list items => if items.isEmpty then 1 else levelsOfItems items + 2
  | object fields => if fields.isEmpty then 1 else levelsOfFields fields + 2
  | null | bool _ | int _ | float _ | text _ => 0

def levelsOfItems : List Value → Nat
  | [] => 0
  | item :: rest => max (levels item) (levelsOfItems rest)

def levelsOfFields : List (String × Value) → Nat
  | [] => 0
  | (_, value) :: rest => max (levels value) (levelsOfFields rest)

end

end Value

/-- Can the plan be sent in messages that have so many levels for a formula? In the same message a
horizon stands one level deeper, and what is said about an input two. -/
def Plan.isSendable {α : Type} (plan : Plan α) (room : Nat) : Bool :=
  plan.formulas.all (fun formula => formula.2.levels ≤ room) &&
    plan.inputs.all (fun input => input.description.levels + 2 ≤ room) &&
    plan.horizon.given.all fun value => value.levels + 1 ≤ room

/-! ## §2 Workers -/

variable {σ α : Type} [UniformSource σ α] [Scalar α]

/-- Does the run do so many batches itself? -/
def Schedule.isInline (schedule : Schedule) (batches : Nat) : Bool :=
  schedule.workers.isOne || batches = 1

/-- The plan where the workers of a pool use it. A worker that shares the memory starts on an empty
stack, whoever asked for the run, and has taken one place of it. A worker with memory of its own
starts on a copy of the stack of the run, and takes fourteen places more. -/
def Schedule.atWorker (schedule : Schedule) (plan : Plan α) : Plan α :=
  match schedule.executor with
  | .thread => plan.above 1
  | .process => plan.above (plan.taken + 14)

/-- Do the workers of a pool get the plan? -/
def Schedule.canSend (schedule : Schedule) (plan : Plan α) : Bool :=
  schedule.executor = .thread || plan.isSendable schedule.messageLevels

/-- The token that the workers of a pool look at. -/
def Schedule.shared (schedule : Schedule) (signal : Option Signal) : Option Signal :=
  if schedule.executor = .thread then signal else none

/-! ## §3 Batches -/

/-- The work that a run gives to a pool with so many seats. -/
def poolWork (plan : Plan α) (start : Nat → σ) (signal : Option Signal) (schedule : Schedule)
    (sizes : List Nat) (seats : Nat) : Pool.Work (RunError α) (List (Trial α)) where
  seats
  count := sizes.length
  task i :=
    if schedule.canSend plan then
      (runBatch (schedule.atWorker plan) (schedule.shared signal) schedule.checkInterval
        (sizes.getD i 0) (start i) 0).1
    else .error .notSent
  onTimeout := signal.map fun token => look (some token)

/-- All batches of a run. What cannot be sent is noticed when the first result is waited for. -/
def spreadBatches (plan : Plan α) (start : Nat → σ) (signal : Option Signal) (schedule : Schedule)
    (sizes : List Nat) : Step α (List (Trial α)) :=
  if schedule.isInline sizes.length then
    inlineFrom plan start signal schedule.checkInterval 0 sizes
  else if sizes.isEmpty then fun looks => (.error .noWork, looks)
  else if !schedule.workers.canStart schedule.executor sizes.length then
    fun looks => (.error .unusable, looks)
  else if !schedule.canSend plan then fun looks => (.error .notSent, looks)
  else
    runPooled (schedule.atWorker plan) start (schedule.shared signal) schedule.checkInterval sizes
      (List.range sizes.length)

/-! ## §4 Whole -/

/-- A run whose batches are done in some way, with a look before and one after all of them. -/
def runAround (signal : Option Signal) (batches : Step α (List (Trial α))) :
    Step α (List (Trial α)) :=
  (look signal).andThen fun _ =>
    batches.andThen fun trials =>
      (look signal).andThen fun _ looks =>
        if trials.isEmpty then (.error .noTrials, looks) else (.ok trials, looks)

/-- The trials of a run in order. Batch `i` draws from the source that starts in `start i`. -/
def spreadTrials (plan : Plan α) (start : Nat → σ) (signal : Option Signal) (schedule : Schedule)
    (iterations : Nat) : Step α (List (Trial α)) :=
  runAround signal
    (spreadBatches plan start signal schedule (batchSizes iterations schedule.batchSize))

end BusinessCase
