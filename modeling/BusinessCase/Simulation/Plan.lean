/-
BusinessCase.Simulation.Plan — what a trial needs, worked out once.

A workbook without blocking problems becomes a plan: its inputs, the trees of
its formulas in an order in which each finds what it refers to, and for every
category the metrics whose money it counts.

  §1 Types       — `Figure`, `Input`, `PlanCategory`, `Horizon`, `Plan`.
  §2 Compilation — `Workbook.compile`.
  §3 Results     — `Plan.evaluate`, the formulas on top of given values.
-/
import BusinessCase.Dependency.Order
import BusinessCase.Formula.Stack
import BusinessCase.Validation.Workbook

namespace BusinessCase

open Formula

/-! ## §1 Types -/

/-- Where the value of an input comes from. -/
inductive Figure (α : Type) where
  | fixed (x : α)
  | estimate (bounds : Distribution α)

/-- An input of a trial. -/
structure Input (α : Type) where
  id : String
  name : String
  figure : Figure α
  /-- What is said about it. No trial reads this, but it goes wherever the plan goes. -/
  description : Value := .null

/-- A category with the inputs that are money. -/
structure PlanCategory where
  id : String
  name : String
  type : CategoryType
  members : List String

/-- Why a trial cannot use a horizon. -/
inductive HorizonFault where
  /-- A factor or the rate is no number, or too large for one. -/
  | number (fault : Value.NumberFault)
  /-- The id of the rate is a list or an object, which cannot be looked up. -/
  | unusableId

/-- How one year's benefits and costs spread over the years, and how they are discounted. Only a
trial finds out that a horizon is of no use. -/
structure Horizon (α : Type) where
  /-- Factors on the benefits, year by year. -/
  growth : List α
  /-- Factors on the costs, year by year. -/
  efficiency : List α
  /-- The rate, unless a value of the trial carries it. -/
  defaultRate : Except HorizonFault α
  /-- The id of the value that carries the rate, if there can be such a value. -/
  rateId : Option String
  /-- Why no trial at all can use the horizon. -/
  fault : Option HorizonFault := none
  /-- The factors, the rate and its id as they were given. -/
  given : List Value := []

namespace Horizon

variable {α : Type}

def years (h : Horizon α) : Nat := h.growth.length

/-- The rate of a trial: the value that carries it, or else the default. -/
def rate (h : Horizon α) (values : Table α) : Except HorizonFault α :=
  match h.rateId.bind values.find? with
  | some x => .ok x
  | none => h.defaultRate

end Horizon

/-- Everything a trial needs. -/
structure Plan (α : Type) where
  inputs : List (Input α)
  formulas : Table (Expr α)
  /-- The ids of formulas, each after all it refers to. -/
  order : List String
  categories : List PlanCategory
  horizon : Horizon α
  /-- Places of the stack that are taken when the plan is used. -/
  taken : Nat := 0

/-- The plan where so many places of the stack are taken. -/
def Plan.above {α : Type} (plan : Plan α) (taken : Nat) : Plan α := { plan with taken }

/-! ## §2 Compilation -/

/-- Why a workbook cannot be simulated. -/
inductive CompileError where
  /-- The workbook cannot be validated. -/
  | stopped (fault : ValidationFault)
  /-- These ids lie on cycles of references. -/
  | circular (ids : List String)
  /-- These problems stop a simulation. -/
  | invalid (issues : List Issue)
  /-- A formula that passed its check is none when it is read for the plan. -/
  | unreadable (error : SyntaxError)

/-- An input: an estimate, or a fixed value that is zero if none is given. -/
def Metric.input (m : Metric) : Input Float :=
  { id := m.id, name := m.name, description := m.description
    figure := match m.distribution with
      | some bounds => .estimate bounds
      | none => .fixed (m.value.getD 0.0) }

/-- A category with its members that are money. -/
def Workbook.planCategory (w : Workbook) (c : Category) : PlanCategory :=
  { id := c.id, name := c.name, type := c.type
    members := ((w.members c).filter Metric.isMonetary).map (·.id) }

/-- The formulas of a workbook, read once more; under an id that is used twice stands the last. -/
def Workbook.readFormulas (limits : Limits) (w : Workbook) :
    Except SyntaxError (Table (Expr Float)) :=
  (w.formulaEntries.mapM fun entry =>
    (Formula.read limits entry.expression).map (entry.id, ·)).map Table.ofEntries

/-- The plan of a workbook with the given trees. -/
def Workbook.planWith (limits : Limits) (horizon : Horizon Float) (w : Workbook)
    (formulas : Table (Expr Float)) : Plan Float :=
  let map := DependencyMap.ofFormulas formulas (w.metrics.map (·.id))
  { inputs := w.metrics.map Metric.input
    formulas
    order := map.order.filter fun id => (formulas.find? id).isSome
    categories := w.categories.map w.planCategory
    horizon
    taken := limits.taken }

/-- The plan of a workbook with the trees that its validation found, whatever its problems. -/
def Workbook.plan (limits : Limits) (horizon : Horizon Float) (w : Workbook) : Plan Float :=
  w.planWith limits horizon (w.trees limits)

/-- The problems that do not stop a simulation, as far as the workbook can be checked. -/
def Workbook.warnings (limits : Limits) (w : Workbook) : List Issue :=
  match w.validate limits.inner with
  | .ok issues => issues.filter (·.severity = .warning)
  | .error _ => []

/-- The plan of a workbook that can be simulated. A cycle is reported before all other problems,
because with it there is no order of evaluation at all. -/
def Workbook.compile (limits : Limits) (horizon : Horizon Float) (w : Workbook) :
    Except CompileError (Plan Float) :=
  match w.validate limits.inner with
  | .error fault => .error (.stopped fault)
  | .ok issues =>
    let problems := blocking issues
    match problems.find? (·.kind = .circularDependency) with
    | some cycle => .error (.circular cycle.ids)
    | none =>
      if problems.isEmpty then
        match w.readFormulas limits with
        | .error error => .error (.unreadable error)
        | .ok formulas => .ok (w.planWith limits horizon formulas)
      else .error (.invalid problems)

/-! ## §3 Results -/

variable {α : Type} [Scalar α]

/-- Evaluates the formulas of the given ids one after the other on a table, putting each result
under its id. A formula sees what the table holds by then. An entry is read as a cell and made of a
number; `callers` places more of the stack are taken by those who ask. -/
def Plan.evaluateFrom {β : Type} (plan : Plan α) (callers : Nat) (cell : β → Cell α)
    (entry : α → β) (values : Table β) : List String → Except EvalError (Table β)
  | [] => .ok values
  | id :: rest =>
    match plan.formulas.find? id with
    | none => plan.evaluateFrom callers cell entry values rest
    | some e =>
      match e.outcome (plan.taken + callers) (resolve fun name => (values.find? name).map cell) with
      | .error error => .error error
      | .ok x => plan.evaluateFrom callers cell entry (values.set id (entry x)) rest

/-- A table of cells with the results of all formulas put on top. -/
def Plan.evaluate (plan : Plan α) (base : Table (Cell α)) : Except EvalError (Table (Cell α)) :=
  plan.evaluateFrom 1 (fun c => c) Cell.number base plan.order

/-- The numbers of a trial with the results of all formulas put on top. -/
def Plan.complete (plan : Plan α) (sampled : Table α) : Except EvalError (Table α) :=
  plan.evaluateFrom 2 Cell.number (fun x => x) sampled plan.order

end BusinessCase
