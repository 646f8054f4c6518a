/-
BusinessCase.Simulation.Engine — a workbook in, a report out.

The count of trials is checked first, then the workbook is compiled, the
trials run, and their tables summed up. What is worth a warning is logged on
the way, and the log is there also where there is no report. Counts and the
seed come as they were given, and each is used where the run first needs it.

  §1 Failures    — what can end a run.
  §2 Counts      — how many trials are asked for.
  §3 Compilation — the plan of a workbook.
  §4 Trials      — the trials of a run under a seed.
  §5 Reports     — `simulate`.
-/
import BusinessCase.Error
import BusinessCase.Log
import BusinessCase.Random.Entropy
import BusinessCase.Settings
import BusinessCase.Simulation.Workers
import BusinessCase.Statistics.Report

namespace BusinessCase

/-! ## §1 Failures -/

namespace Failure

def ofSampling : SamplingError Float → Failure
  | .exhausted => exhausted
  | .arithmetic e => arithmetic e
  | .shapeNotPositive shape =>
    badValue ("gamma shape must be positive, got " ++ Decimal.exact shape)
  | .boundsOutOfOrder b =>
    badValue ("PERT bounds out of order: min=" ++ Decimal.exact b.low ++ ", mode=" ++
      Decimal.exact b.mode ++ ", max=" ++ Decimal.exact b.high)

def ofNumber : Value.NumberFault → Failure
  | .tooLarge => arithmetic .overflow
  | .notANumber => wrongKind

def ofHorizon : HorizonFault → Failure
  | .number fault => ofNumber fault
  | .unusableId => wrongKind

def ofTrial : TrialError Float → Failure
  | .sampling e => ofSampling e
  | .eval e => ofEval e
  | .arithmetic e => arithmetic e
  | .horizon fault => ofHorizon fault
  | .emptyHorizon => emptyList

def ofStop : Stop → Failure
  | .cancelled => engine .stopped
  | .expired => engine .expired

def ofRun : RunError Float → Failure
  | .stopped reason => ofStop reason
  | .trial e => ofTrial e
  | .zeroInterval => arithmetic .divisionByZero
  | .noTrials => badValue "No objects to concatenate"
  | .noWork => badValue "max_workers must be greater than 0"
  | .unusable => wrongKind
  | .tooManyBatches => arithmetic .overflow
  | .noRoom => noRoom
  | .notSent => stackExhausted

def ofCompile : CompileError → Failure
  | .stopped fault => ofFault fault
  | .circular ids => engine (.circular ids)
  | .invalid issues => engine (.validation issues)
  | .unreadable error => ofSyntax error

def ofSettings : SettingsError → Failure
  | .unknownName _ | .wrongKind _ => wrongKind
  | e => badValue e.message

def ofNumeral : NumeralFault → Failure
  | .tooLarge => arithmetic .overflow
  | .kind _ => wrongKind
  | fault => badValue fault.message

def ofSeed : Seed.SeedFault → Failure
  | .negative => badValue "expected non-negative integer"
  | .kind => wrongKind
  | .notShown => notShown
  | .numeral fault => ofNumeral fault
  | .unrecognized => badValue "unrecognized seed string"

end Failure

/-! ## §2 Counts -/

/-- How many trials are asked for: the whole part of what a request names, or else the setting as it
is. -/
def trialsWanted (settings : Settings) (iterations : Value) : Except Failure Value :=
  match iterations with
  | .null => .ok settings.iterations
  | value => (value.truncate.map .int).mapError .ofNumeral

/-- Does a count lie between one and a greatest count? Nothing where one of them is no number; the
greatest count is looked at only if the count is at least one. -/
def inRange? (count greatest : Value) : Option Bool :=
  match (Value.int 1).atMost? count with
  | some true => count.atMost? greatest
  | other => other

def outOfRange (count greatest : Value) : Failure :=
  if count.isShown && greatest.isShown then
    .badValue ("iterations must be between 1 and " ++ greatest.plain ++ ", got " ++ count.plain)
  else .notShown

def checkedTrials (settings : Settings) (iterations : Value) : Except Failure Value := do
  let wanted ← trialsWanted settings iterations
  match inRange? wanted settings.maxIterations with
  | some true => .ok wanted
  | some false => .error (outOfRange wanted settings.maxIterations)
  | none => .error .wrongKind

/-- A count as a whole number; truth values count as zero and one. -/
def wholeCount? : Value → Option Int
  | .int n => some n
  | .bool b => some (if b then 1 else 0)
  | .null | .float _ | .text _ | .list _ | .object _ => none

/-! ## §3 Compilation -/

/-- What is logged about the warnings of a workbook. -/
def warningRecords (limits : Formula.Limits) (w : Workbook) : List Log.Record :=
  (w.warnings limits).map fun issue =>
    Log.warning "simulation_core" (issue.target.getD "None" ++ ": " ++ issue.message)

def planOf (settings : Settings) (w : Workbook) : Except Failure (Plan Float) :=
  (w.compile settings.limits settings.horizon.horizon).mapError .ofCompile

/-! ## §4 Trials -/

/-- Batches are counted in words of 64 bits, one of them for the sign. -/
def countBound : Int := 0x8000000000000000

/-- So many batches find no room in a list: the 34th power of two. -/
def listBound : Int := 0x400000000

def listingError? (batches : Int) : Option (RunError Float) :=
  if countBound ≤ batches || batches < -countBound then some .tooManyBatches
  else if listBound ≤ batches then some .noRoom
  else none

/-- A batch whose size is given as a truth value ends in its table: the run gets no further than its
first batch, which has one trial. -/
def truthBatch {σ : Type} [UniformSource σ Float] (plan : Plan Float) (start : Nat → σ)
    (signal : Option Signal) (interval : Interval) : Step Float (List (Trial Float)) := fun looks =>
  match look signal looks with
  | (.error e, looks) => (.error e, looks)
  | (.ok (), looks) =>
    match inlineFrom plan start signal interval 0 [1] looks with
    | (.error e, looks) => (.error e, looks)
    | (.ok _, looks) => (.error .unusable, looks)

/-- The trials of a run under the words of a seed, each batch drawing from its own child of the
seed. The count of looks at the token comes with the outcome. -/
def seededTrials (plan : Plan Float) (settings : Settings) (seed : List UInt32)
    (signal : Option Signal) (iterations : Value) : Except Failure (List (Trial Float)) × Nat :=
  let start := Permuted.ofChild seed
  let plan := { plan with taken := plan.taken + 2 }
  let outcome : Except (RunError Float) (List (Trial Float)) × Nat :=
    match wholeCount? iterations, wholeCount? settings.batchSize with
    | some count, some size =>
      match listingError? (count / size) with
      | some e => (.error e, 0)
      | none =>
        if settings.batchSize.isTruthValue && 0 < count then
          truthBatch plan start signal settings.interval 0
        else
          let schedule := settings.schedule size.toNat
          spreadTrials plan start signal schedule (trialsAsked count size.toNat) 0
    | _, _ => (.error .unusable, 0)
  (outcome.1.mapError .ofRun, outcome.2)

/-! ## §5 Reports -/

/-- How a report came about. -/
structure Metadata where
  iterations : Value
  /-- The seed as it was given, `null` if it was left to chance. -/
  seed : Value

def Metadata.toValue (m : Metadata) : Value :=
  .object [("iterations", m.iterations), ("seed", m.seed)]

/-- A report as an answer carries it, without the times. -/
def Report.toValue (r : Report Float) (m : Metadata) : Value :=
  .object [("npv", r.npv.toValue), ("paybackPeriod", .object [("p50", .float r.medianPayback)]),
    ("yearlyResults", .list (r.years.map YearlyResult.toValue)),
    ("categoryContributions", .list (r.contributions.map CategoryContribution.toValue)),
    ("sensitivityAnalysis", .list (r.sensitivity.map SensitivityEntry.toValue)),
    ("metadata", m.toValue)]

/-- What comes out of a simulation. -/
structure SimulationOutcome where
  result : Except Failure (Report Float × Metadata)
  log : List Log.Record
  looks : Nat

/-- The report of a list of trials, and what is logged about it; the log is there also where the
ranking has no size. -/
def reportOf (plan : Plan Float) (settings : Settings) (trials : List (Trial Float)) :
    Except Failure (Report Float) × List Log.Record :=
  let categories := plan.categories.map fun c => CategoryName.mk c.id c.name
  let names := Table.ofEntries (plan.inputs.map fun i => (i.id, i.name))
  let size := settings.rankingSize?
  match summarize (TrialTables.ofTrials plan trials) categories names plan.horizon.years
      (size.getD none) with
  | .error missing => (.error (.missingColumn missing.name), [])
  | .ok (report, warnings) =>
    (if size.isSome then .ok report else .error .wrongKind,
      warnings.map (Log.warning "simulation_stats"))

/-- The seed of a run: the one that a request names, or else the setting. -/
def seedFor (settings : Settings) (seed : Value) : Value :=
  match seed with
  | .null => settings.seed
  | seed => seed

/-- Simulates a workbook. Without a seed the run draws from `entropy`. -/
def simulate (settings : Settings) (w : Workbook) (iterations seed : Value)
    (signal : Option Signal) (entropy : List UInt32) : SimulationOutcome :=
  let settings := settings.inside 1
  match checkedTrials settings iterations with
  | .error failure => { result := .error failure, log := [], looks := 0 }
  | .ok wanted =>
    let log := warningRecords settings.limits w
    let seed := seedFor settings seed
    match (do .ok (← planOf settings w, ← (Seed.wordsOf? seed).mapError .ofSeed) :
        Except Failure (Plan Float × Option (List UInt32))) with
    | .error failure => { result := .error failure, log, looks := 0 }
    | .ok (plan, words) =>
      match seededTrials plan settings (words.getD entropy) signal wanted with
      | (.error failure, looks) => { result := .error failure, log, looks }
      | (.ok trials, looks) =>
        let (report, records) := reportOf plan settings trials
        { result := report.map fun report => (report, { iterations := wanted, seed })
          log := log ++ records, looks }

end BusinessCase
