/-
BusinessCase.Simulation.Run — many trials of one plan.

Trials come in batches of one size, the last one holding what is left. Every
batch draws from a source of its own, made from the number of the batch alone,
so it does not matter when or by whom a batch is done. A run looks at its
token before each batch that it does itself, and at every so many trials of a
batch.

  §1 Settings — `Schedule`, `trialsAsked`, `batchSizes`.
  §2 Looks    — `Step`, counting looks at the token.
  §3 Batches  — `runBatch`, one after the other or in a pool.
  §4 Tables   — `TrialTables`, the columns of a run.
-/
import BusinessCase.Simulation.Cancellation
import BusinessCase.Simulation.Pool
import BusinessCase.Simulation.Trial

namespace BusinessCase

open Scalar

/-! ## §1 Settings -/

/-- Who does the batches. -/
inductive Executor where
  /-- Workers with memory of their own, which cannot see the token. -/
  | process
  /-- Workers that look at the token themselves. -/
  | thread
  deriving DecidableEq

/-- How many workers there are. A count that was given as a decimal is kept as one. -/
inductive Workers where
  | whole (count : Nat)
  | decimal (x : Float)

def Workers.isOne : Workers → Bool
  | whole count => count = 1
  | decimal x => x == 1.0

/-- Can so many batches be handed out? There are no more workers than batches, and workers with
memory of their own are started one by one, so a decimal must not be what decides their count.
-/
def Workers.canStart (workers : Workers) (executor : Executor) (batches : Nat) : Bool :=
  match workers with
  | whole _ => true
  | decimal x => executor = .thread || Float.ofNat batches < x

/-- Trials of a batch from one look at the token to the next. -/
inductive Interval where
  | whole (count : Int)
  | decimal (x : Float)
  /-- What was given is no number. -/
  | unusable

/-- How the trials of a run are spread. -/
structure Schedule where
  batchSize : Nat
  workers : Workers
  executor : Executor
  checkInterval : Interval
  /-- The levels that a message to workers has for a formula. A sender takes up to two of them for
  itself as long as it has not sent a node of each kind. -/
  messageLevels : Nat := 985

/-- How many trials a count asks for: itself, or what it is short of full batches if it is below
zero. -/
def trialsAsked (count : Int) (batchSize : Nat) : Nat :=
  if count < 0 then (count % batchSize).toNat else count.toNat

/-- The sizes of the batches: full ones, then what is left. -/
def batchSizes (iterations batchSize : Nat) : List Nat :=
  List.replicate (iterations / batchSize) batchSize ++
    (if iterations % batchSize = 0 then [] else [iterations % batchSize])

/-! ## §2 Looks -/

/-- Why a run gives no tables. -/
inductive RunError (α : Type) where
  | stopped (reason : Stop)
  | trial (error : TrialError α)
  /-- There is no interval of zero trials between looks. -/
  | zeroInterval
  | noTrials
  | noWork
  /-- The interval between looks, a count or a size is of a kind that cannot be used. -/
  | unusable
  /-- There are more batches than can be counted. -/
  | tooManyBatches
  /-- There is no room for a list of all batches. -/
  | noRoom
  /-- The plan is too deep for a message to the workers. -/
  | notSent

/-- A step of a run: it has an outcome, and leaves the count of looks made so far. -/
abbrev Step (α β : Type) := Nat → Except (RunError α) β × Nat

variable {σ α β γ : Type}

/-- One step, then another that is made from its result. -/
def Step.andThen (first : Step α β) (next : β → Step α γ) : Step α γ := fun looks =>
  match first looks with
  | (.error e, looks) => (.error e, looks)
  | (.ok made, looks) => next made looks

/-- Looks at the token, if there is one. -/
def look (signal : Option Signal) : Step α Unit := fun looks =>
  match signal with
  | none => (.ok (), looks)
  | some signal =>
    match signal (looks + 1) with
    | none => (.ok (), looks + 1)
    | some reason => (.error (.stopped reason), looks + 1)

def isMultiple (i : Nat) (x : Float) : Bool :=
  match Decimal.decode x with
  | .notANumber => false
  | .infinite _ => i = 0
  | .finite d => i * d.ratio.2 % d.ratio.1 = 0

/-- Is a look due before trial `i` of a batch? -/
def Interval.due (i : Nat) : Interval → Except (RunError α) Bool
  | whole count => if count = 0 then .error .zeroInterval else .ok ((i : Int) % count == 0)
  | decimal x => if x == 0.0 then .error .zeroInterval else .ok (isMultiple i x)
  | unusable => .error .unusable

/-- The look before trial `i` of a batch, if there is a token and a look is due. -/
def lookAt (signal : Option Signal) (interval : Interval) (i : Nat) : Step α Unit := fun looks =>
  match signal with
  | none => (.ok (), looks)
  | some _ =>
    match interval.due i with
    | .error e => (.error e, looks)
    | .ok due => if due then look signal looks else (.ok (), looks)

/-! ## §3 Batches -/

variable [UniformSource σ α] [Scalar α]

/-- The trials `i, i + 1, …` of a batch, `count` of them. -/
def batchFrom (plan : Plan α) (signal : Option Signal) (interval : Interval) :
    (count i : Nat) → σ → Step α (List (Trial α))
  | 0, _, _, looks => (.ok [], looks)
  | count + 1, i, s, looks =>
    match lookAt signal interval i looks with
    | (.error e, looks) => (.error e, looks)
    | (.ok (), looks) =>
      match plan.trial s with
      | (.error e, _) => (.error (.trial e), looks)
      | (.ok trial, s) =>
        match batchFrom plan signal interval count (i + 1) s looks with
        | (.error e, looks) => (.error e, looks)
        | (.ok trials, looks) => (.ok (trial :: trials), looks)

def runBatch (plan : Plan α) (signal : Option Signal) (interval : Interval) (count : Nat) (s : σ) :
    Step α (List (Trial α)) :=
  batchFrom plan signal interval count 0 s

/-- The batches from number `i` on, one after the other, with a look before each. -/
def inlineFrom (plan : Plan α) (start : Nat → σ) (signal : Option Signal) (interval : Interval) :
    (i : Nat) → List Nat → Step α (List (Trial α))
  | _, [], looks => (.ok [], looks)
  | i, count :: rest, looks =>
    match look signal looks with
    | (.error e, looks) => (.error e, looks)
    | (.ok (), looks) =>
      match runBatch plan signal interval count (start i) looks with
      | (.error e, looks) => (.error e, looks)
      | (.ok trials, looks) =>
        match inlineFrom plan start signal interval (i + 1) rest looks with
        | (.error e, looks) => (.error e, looks)
        | (.ok others, looks) => (.ok (trials ++ others), looks)

/-- The results of batches in the order of their numbers; the first that failed decides, and all
looks count. -/
def gather (results : List (Except (RunError α) (List (Trial α)) × Nat)) :
    Step α (List (Trial α)) := fun looks =>
  (results.mapM Prod.fst |>.map List.flatten,
    results.foldl (fun looks result => looks + result.2) looks)

/-- The batches of a plan done in a pool, whose workers finish them in the given order. -/
def runPooled (plan : Plan α) (start : Nat → σ) (signal : Option Signal) (interval : Interval)
    (sizes completion : List Nat) : Step α (List (Trial α)) := fun looks =>
  let task (i : Nat) := runBatch plan signal interval (sizes.getD i 0) (start i) 0
  gather (Pool.run completion sizes.length task) looks

/-! ## §4 Tables -/

/-- The columns of a run, each with one entry for every trial. -/
structure TrialTables (α : Type) where
  outcomes : Table (List α)
  metrics : Table (List α)
  categories : Table (List α)
  formulas : Table (List α)

def outcomeColumn (trials : List (Trial α)) (name : String) (f : Trial α → α) :
    String × List α :=
  (name, trials.map f)

/-- The columns of one year, counted from one. -/
def yearColumns (trials : List (Trial α)) (year : Nat) : Table (List α) :=
  let suffix := "_y" ++ toString year
  let entry (flows : List α) : α := flows.getD (year - 1) nan
  [outcomeColumn trials ("benefits" ++ suffix) (entry ·.benefits),
   outcomeColumn trials ("costs" ++ suffix) (entry ·.costs),
   outcomeColumn trials ("net" ++ suffix) (entry ·.net)]

/-- One column for each id. -/
def idColumns (trials : List (Trial α)) (ids : List String) (f : Trial α → Table α) :
    Table (List α) :=
  (firstAppearances ids).map fun id =>
    outcomeColumn trials id fun trial => ((f trial).find? id).getD nan

def TrialTables.ofTrials (plan : Plan α) (trials : List (Trial α)) : TrialTables α :=
  { outcomes :=
      outcomeColumn trials "npv" (·.npv) ::
      outcomeColumn trials "payback_months" (·.payback.toScalar) ::
      (List.range plan.horizon.years).flatMap fun i => yearColumns trials (i + 1)
    metrics := idColumns trials (plan.inputs.map (·.id)) (·.sampled)
    categories := idColumns trials (plan.categories.map (·.id)) (·.contributions)
    formulas := idColumns trials plan.order (·.values) }

end BusinessCase
