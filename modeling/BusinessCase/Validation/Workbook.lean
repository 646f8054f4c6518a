/-
BusinessCase.Validation.Workbook — every problem of a workbook.

Each formula is checked by itself, so that one broken formula hides nothing
about the others. Problems come in workbook order: repeated ids, categories,
metrics, formulas, and last a cycle of references.

  §1 Metrics  — values and estimates.
  §2 Ids      — repeated ids, categories that list strangers.
  §3 Formulas — the formulas of a workbook, checked one by one.
  §4 Whole    — `Workbook.issues`.
  §5 Faults   — what stops a validation; `Workbook.validate`.
-/
import BusinessCase.Dependency.Components
import BusinessCase.Scalar.Binary64
import BusinessCase.Validation.Expression
import BusinessCase.Value.Shown
import BusinessCase.Workbook.Basic

namespace BusinessCase

open Formula

/-! ## §1 Metrics -/

/-- A problem of one bound of an estimate. -/
def boundIssue (id field message : String) : Issue :=
  { target := some id, kind := .invalidDistribution, message, field := some field }

/-- Which bounds of an estimate are out of order. -/
def orderIssues (id : String) (d : Distribution Float) : List Issue :=
  if d.high < d.low then
    [boundIssue id "min" "Min must be ≤ Max", boundIssue id "max" "Max must be ≥ Min"]
  else
    (if d.mode < d.low then [boundIssue id "min" "Min must be ≤ Most likely"] else []) ++
      (if d.high < d.mode then [boundIssue id "max" "Max must be ≥ Most likely"] else [])

/-- The problems of an estimate: bounds that are missing, or else bounds out of order. -/
def Distribution.issues (id : String) (d : Distribution Float) : List Issue :=
  let missing := [("min", d.low), ("mode", d.mode), ("max", d.high)].filter fun b => !b.2.isFinite
  if missing.isEmpty then orderIssues id d else missing.map fun b => boundIssue id b.1 "Required"

def valueIssues (id : String) (x : Float) : List Issue :=
  if x.isFinite then []
  else [{ target := some id, kind := .invalidValue, message := "Must be a finite number",
          field := some "value" }]

def Metric.issues (m : Metric) : List Issue :=
  m.value.elim [] (valueIssues m.id) ++ m.distribution.elim [] (Distribution.issues m.id)

/-! ## §2 Ids -/

/-- A problem for every id that stands in the list before. -/
def repeatedIdIssues : (seen ids : List String) → List Issue
  | _, [] => []
  | seen, id :: rest =>
    (if seen.contains id then
      [{ target := some id, kind := .duplicateId,
         message := "Id '" ++ id ++ "' is used more than once" }]
    else []) ++ repeatedIdIssues (id :: seen) rest

/-- The metrics that a category lists and the workbook does not have. -/
def Category.strays (category : Category) (w : Workbook) : List String :=
  category.metricIds.filter fun id => !(w.metrics.map (·.id)).contains id

/-- The problem of a category that lists strangers. -/
def Category.issues (w : Workbook) (category : Category) : List Issue :=
  let strays := category.strays w
  if strays.isEmpty then []
  else [{ target := some category.id, kind := .unknownReference, field := some "metricIds",
          message := "Category lists unknown metric(s): " ++ ", ".intercalate strays }]

/-- The category that a metric names, if the workbook does not have it. -/
def Metric.strangeCategory? (w : Workbook) (m : Metric) : Option String :=
  if m.categoryId.isTruthy && !w.categories.any m.names then some m.categoryId.plain else none

/-- The warning about a metric that names no category of the workbook. -/
def Metric.categoryIssues (w : Workbook) (m : Metric) : List Issue :=
  match m.strangeCategory? w with
  | none => []
  | some name =>
    [{ target := some m.id, kind := .unknownCategory, field := some "categoryId",
       severity := .warning, message := "Category '" ++ name ++ "' does not exist" }]

/-! ## §3 Formulas -/

/-- A formula with its place. -/
structure Entry where
  id : String
  field : String
  expression : String

/-- The formula of a metric. -/
def Metric.entry? (m : Metric) : Option Entry :=
  m.formula?.map fun text => ⟨m.id, "formula", text⟩

def NamedFormula.entry (f : NamedFormula) : Entry := ⟨f.id, "expression", f.expression⟩

/-- All formulas of a workbook: those of metrics, then the named ones. -/
def Workbook.formulaEntries (w : Workbook) : List Entry :=
  w.metrics.filterMap Metric.entry? ++ w.formulas.map NamedFormula.entry

def Entry.check (limits : Limits) (w : Workbook) (entry : Entry) :
    Option (Expr Float) × Option Issue :=
  checkExpression limits w.ids ⟨some entry.id, some entry.field⟩ (some entry.expression)

def Entry.issues (limits : Limits) (w : Workbook) (entry : Entry) : List Issue :=
  (entry.check limits w).2.toList

/-- The trees of all formulas that have one, by id. -/
def Workbook.trees (limits : Limits) (w : Workbook) : Table (Expr Float) :=
  Table.ofEntries (w.formulaEntries.filterMap fun entry =>
    (entry.check limits w).1.map (entry.id, ·))

/-- The ids on cycles of references among the formulas. -/
def Workbook.cycle (limits : Limits) (w : Workbook) : List String :=
  (DependencyMap.ofFormulas (w.trees limits) []).cycles

/-! ## §4 Whole -/

def circularText (ids : List String) : String :=
  "Circular formula dependency: " ++ ", ".intercalate ids

def cycleIssues (cycle : List String) : List Issue :=
  if cycle.isEmpty then []
  else [{ target := none, kind := .circularDependency, message := circularText cycle,
          ids := cycle }]

/-- Every problem of a workbook, in workbook order. -/
def Workbook.issues (limits : Limits) (w : Workbook) : List Issue :=
  repeatedIdIssues [] w.ids ++
    w.categories.flatMap (Category.issues w) ++
    w.metrics.flatMap (fun m =>
      m.issues ++ m.categoryIssues w ++ m.entry?.elim [] (Entry.issues limits w)) ++
    w.formulas.flatMap (fun f => f.entry.issues limits w) ++
    cycleIssues (w.cycle limits)

/-! ## §5 Faults -/

/-- What stops the validation of a workbook. -/
inductive ValidationFault where
  /-- The category id of the metric cannot be looked up: it is a list or an object. -/
  | unusableCategoryId (metric : String)
  /-- The category id of the metric is unknown, and too long to be shown. -/
  | unshownCategoryId (metric : String)
  /-- The reading of the formula with that id stopped. -/
  | reading (id : String) (stop : ReadStop)

/-- What stops the look-up of a metric's category. -/
def Metric.categoryFault? (w : Workbook) (m : Metric) : Option ValidationFault :=
  if m.categoryId.isTruthy && !m.categoryId.isKey then some (.unusableCategoryId m.id)
  else if (m.strangeCategory? w).isSome && !m.categoryId.isShown then
    some (.unshownCategoryId m.id)
  else none

/-- What stops the check of a formula. -/
def Entry.fault? (limits : Limits) (entry : Entry) : Option ValidationFault :=
  (checkStop? limits.inner (some entry.expression)).map (.reading entry.id)

/-- Everything that stops the validation of a workbook, in workbook order. -/
def Workbook.faults (limits : Limits) (w : Workbook) : List ValidationFault :=
  (w.metrics.flatMap fun m =>
    (m.categoryFault? w).toList ++ (m.entry?.bind (Entry.fault? limits)).toList) ++
    w.formulas.filterMap fun f => f.entry.fault? limits

/-- The problems of a workbook, unless something stops its validation. -/
def Workbook.validate (limits : Limits) (w : Workbook) :
    Except ValidationFault (List Issue) :=
  match (w.faults limits).head? with
  | some fault => .error fault
  | none => .ok (w.issues limits)

end BusinessCase
