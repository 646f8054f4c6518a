/-
BusinessCase.Workbook.Basic — a business case as plain data.

Metrics are the inputs: fixed values, three-point estimates, or formulas.
Further formulas stand beside them. Categories gather metrics into benefits
and costs; facts are only listed.
-/
import BusinessCase.Text.Blank
import BusinessCase.Value

namespace BusinessCase

/-- What a category's money counts as. -/
inductive CategoryType where
  | benefit
  | cost
  /-- For information; counts as neither. -/
  | facts
  deriving DecidableEq

def CategoryType.name : CategoryType → String
  | benefit => "benefit"
  | cost => "cost"
  | facts => "facts"

/-- All category types, in the order in which messages list them. -/
def CategoryType.all : List CategoryType := [.benefit, .cost, .facts]

/-- A three-point estimate: least, most likely and greatest value. A bound that was not given is no
number. -/
structure Distribution (α : Type) where
  low : α
  mode : α
  high : α

/-- An input of the business case. -/
structure Metric where
  id : String
  name : String
  unit : Option String
  value : Option Float
  distribution : Option (Distribution Float)
  formula : Option String
  /-- The id of the category it belongs to, as given. -/
  categoryId : Value
  description : Value

/-- A result computed from metrics and other results. -/
structure NamedFormula where
  id : String
  name : String
  expression : String

/-- A group of metrics. -/
structure Category where
  id : String
  name : String
  type : CategoryType
  metricIds : List String
  description : Value

/-- A business case. -/
structure Workbook where
  metrics : List Metric
  formulas : List NamedFormula
  categories : List Category

/-- The estimate leaves nothing open. -/
def Distribution.isDegenerate (d : Distribution Float) : Bool := d.low == d.high

/-- Money is what has a dollar sign in its unit. -/
def Metric.isMonetary (m : Metric) : Bool := m.unit.any fun unit => unit.toList.contains '$'

/-- The formula of a metric, unless it is missing or blank. -/
def Metric.formula? (m : Metric) : Option String :=
  m.formula.filter fun text => !Text.isAllBlank text

/-- Does the metric name that category? -/
def Metric.names (m : Metric) (category : Category) : Bool :=
  match m.categoryId with
  | .text id => id == category.id
  | _ => false

namespace Workbook

def metric? (w : Workbook) (id : String) : Option Metric := w.metrics.find? (·.id == id)

/-- The ids of metrics, then of formulas. -/
def ids (w : Workbook) : List String := w.metrics.map (·.id) ++ w.formulas.map (·.id)

/-- The metrics that a category lists or that name it, in workbook order. -/
def members (w : Workbook) (category : Category) : List Metric :=
  w.metrics.filter fun m => category.metricIds.contains m.id || m.names category

end Workbook

end BusinessCase
