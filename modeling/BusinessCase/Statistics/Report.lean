/-
BusinessCase.Statistics.Report — what a run says about the business case.

Percentiles, mean and spread of the worth and of each year's flows, the median
payback, what each category contributes, and which inputs the worth depends on
most. Trials without a number are left out and counted in the log.

  §1 Types    — `Stats`, `Report` and their parts.
  §2 Parts    — statistics, contributions, ranking.
  §3 Warnings — trials that were left out.
  §4 Whole    — `summarize`.
  §5 Payload  — the parts of a report as an answer carries them.
-/
import BusinessCase.Simulation.Run
import BusinessCase.Statistics.Correlation
import BusinessCase.Statistics.Quantile

namespace BusinessCase

open Scalar

/-! ## §1 Types -/

/-- Percentiles, mean and standard deviation. -/
structure Stats (α : Type) where
  p10 : α
  p25 : α
  p50 : α
  p75 : α
  p90 : α
  mean : α
  std : α

/-- The statistics of one year. -/
structure YearlyResult (α : Type) where
  year : Nat
  benefits : Stats α
  costs : Stats α
  net : Stats α

/-- What a category contributes on average, and as a percentage of the mean worth. -/
structure CategoryContribution (α : Type) where
  id : String
  name : String
  contribution : α
  percentage : α

/-- How the worth correlates with an input. -/
structure SensitivityEntry (α : Type) where
  id : String
  name : String
  impact : α

/-- What a run says about the business case. -/
structure Report (α : Type) where
  npv : Stats α
  medianPayback : α
  years : List (YearlyResult α)
  contributions : List (CategoryContribution α)
  sensitivity : List (SensitivityEntry α)

/-- A category as far as a report names it. -/
structure CategoryName where
  id : String
  name : String

/-! ## §2 Parts -/

variable {α : Type} [Scalar α]

def Stats.of (samples : List α) : Stats α :=
  let sorted := sortedKnown samples
  { p10 := percentileOfSorted sorted 10
    p25 := percentileOfSorted sorted 25
    p50 := percentileOfSorted sorted 50
    p75 := percentileOfSorted sorted 75
    p90 := percentileOfSorted sorted 90
    mean := BusinessCase.mean samples
    std := deviation samples }

/-- A column that is asked for and not there. -/
structure MissingColumn where
  name : String

def column (table : Table (List α)) (name : String) : Except MissingColumn (List α) :=
  match table.find? name with
  | some samples => .ok samples
  | none => .error ⟨name⟩

/-- The share of `whole` that a contribution makes up, in percent; none of nothing. -/
def percentageOf (whole contribution : α) : α :=
  if eq whole (nat 0) then nat 0 else contribution / whole * nat 100

def contributions (samples : Table (List α)) (npvMean : α) :
    List CategoryName → Except MissingColumn (List (CategoryContribution α))
  | [] => .ok []
  | category :: rest => do
    let own ← column samples category.id
    let contribution := mean own
    let percentage := percentageOf npvMean contribution
    let others ← contributions samples npvMean rest
    .ok (⟨category.id, category.name, contribution, percentage⟩ :: others)

/-- The entries up to place `k`, or all; a negative place is counted from the end. -/
def upTo {β : Type} (k : Option Int) (entries : List β) : List β :=
  match k with
  | none => entries
  | some k => if k < 0 then entries.take (entries.length - k.natAbs) else entries.take k.toNat

def SensitivityEntry.before (a b : SensitivityEntry α) : Bool :=
  le (Scalar.abs b.impact) (Scalar.abs a.impact)

/-- The inputs by the size of their correlation with the worth, greatest first and equal ones in
column order, the first `topK` of them. -/
def ranking (metrics : Table (List α)) (npv : List α) (names : Table String)
    (topK : Option Int) : List (SensitivityEntry α) :=
  let entries := metrics.map fun (id, samples) =>
    { id, name := (names.find? id).getD id, impact := correlation samples npv : SensitivityEntry α }
  upTo topK (entries.mergeSort SensitivityEntry.before)

/-! ## §3 Warnings -/

/-- What is said about samples that were left out. -/
def droppedText? (label : String) (samples : List α) : Option String :=
  let dropped := (samples.filter isNaN).length
  if dropped = 0 then none
  else some (label ++ ": " ++ toString dropped ++ " trial(s) produced NaN and were left out")

def yearColumn (what : String) (year : Nat) : String := what ++ "_y" ++ toString year

/-! ## §4 Whole -/

/-- The statistics of one year, and what is said about its samples. -/
def summarizeYear (outcomes : Table (List α)) (year : Nat) :
    Except MissingColumn (YearlyResult α × Option String) := do
  let net ← column outcomes (yearColumn "net" year)
  let benefits ← column outcomes (yearColumn "benefits" year)
  let costs ← column outcomes (yearColumn "costs" year)
  .ok (⟨year, Stats.of benefits, Stats.of costs, Stats.of net⟩,
    droppedText? ("Net cash flow, year " ++ toString year) net)

/-- The statistics of so many years from the given one on, up to the first that has none. -/
def summarizeYears (outcomes : Table (List α)) :
    (count year : Nat) → Except MissingColumn (List (YearlyResult α × Option String))
  | 0, _ => .ok []
  | count + 1, year => do
    let first ← summarizeYear outcomes year
    let rest ← summarizeYears outcomes count (year + 1)
    .ok (first :: rest)

def summarize (tables : TrialTables α) (categories : List CategoryName) (names : Table String)
    (years : Nat) (topK : Option Int) : Except MissingColumn (Report α × List String) := do
  let npv ← column tables.outcomes "npv"
  let yearly ← summarizeYears tables.outcomes years 1
  let payback ← column tables.outcomes "payback_months"
  let stats := Stats.of npv
  let parts ← contributions tables.categories stats.mean categories
  .ok (
    { npv := stats
      medianPayback := percentile payback 50
      years := yearly.map Prod.fst
      contributions := parts
      sensitivity := ranking tables.metrics npv names topK },
    (droppedText? "NPV" npv).toList ++ yearly.filterMap Prod.snd)

/-! ## §5 Payload -/

def Stats.toValue (s : Stats Float) : Value :=
  .object [("p10", .float s.p10), ("p25", .float s.p25), ("p50", .float s.p50),
    ("p75", .float s.p75), ("p90", .float s.p90), ("mean", .float s.mean), ("std", .float s.std)]

def YearlyResult.toValue (y : YearlyResult Float) : Value :=
  .object [("year", .int y.year), ("benefits", y.benefits.toValue), ("costs", y.costs.toValue),
    ("net", y.net.toValue)]

def CategoryContribution.toValue (c : CategoryContribution Float) : Value :=
  .object [("categoryId", .text c.id), ("categoryName", .text c.name),
    ("contribution", .float c.contribution), ("percentage", .float c.percentage)]

def SensitivityEntry.toValue (e : SensitivityEntry Float) : Value :=
  .object [("metricId", .text e.id), ("metricName", .text e.name), ("impact", .float e.impact)]

end BusinessCase
