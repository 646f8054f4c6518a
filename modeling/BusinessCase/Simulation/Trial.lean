/-
BusinessCase.Simulation.Trial — one run through the plan.

Every uncertain input is sampled, every formula evaluated, the money of each
category added up, spread over the years, discounted and set against the
costs. `settle` does all that follows the sampling.
-/
import BusinessCase.Sampling.Pert
import BusinessCase.Simulation.CashFlow
import BusinessCase.Simulation.Plan

namespace BusinessCase

open Formula Scalar

/-- What comes out of one trial. -/
structure Trial (α : Type) where
  /-- The value of every input. -/
  sampled : Table α
  /-- The inputs, with the results of formulas put on top. -/
  values : Table α
  /-- The money of every category, by id. -/
  contributions : Table α
  benefits : List α
  costs : List α
  net : List α
  /-- The worth of the net flows today. -/
  npv : α
  payback : Payback

/-- Why a trial has no outcome. -/
inductive TrialError (α : Type) where
  | sampling (error : SamplingError α)
  | eval (error : EvalError)
  | arithmetic (error : ArithmeticError)
  | horizon (fault : HorizonFault)
  /-- The horizon has no first year. -/
  | emptyHorizon

variable {σ α : Type} [UniformSource σ α] [Scalar α]

/-! ## Sampling -/

def Figure.sample : Figure α → Sampler σ (SamplingError α) α
  | fixed x => Sampler.done x
  | estimate bounds => bounds.sample

/-- The value of every input, in order. -/
def sampleInputs : List (Input α) → Sampler σ (SamplingError α) (List (String × α))
  | [] => Sampler.done []
  | input :: rest =>
    Sampler.andThen input.figure.sample fun x =>
      Sampler.andThen (sampleInputs rest) fun table => Sampler.done ((input.id, x) :: table)

/-! ## Roll-up -/

/-- The money of a category: the values of its members, added up in order. -/
def PlanCategory.contribution (values : Table α) (c : PlanCategory) : α :=
  sumLeft (c.members.map fun id => (values.find? id).getD nan)

def totalOf (type : CategoryType) (values : Table α) (categories : List PlanCategory) : α :=
  sumLeft ((categories.filter (·.type = type)).map (·.contribution values))

/-- The discount rate of a trial, unless the horizon is of no use to it. -/
def Horizon.usableRate (h : Horizon α) (values : Table α) : Except HorizonFault α :=
  match h.fault with
  | some fault => .error fault
  | none => h.rate values

/-- The outcome of a trial with the given values of inputs and formulas. -/
def Plan.rollUp (plan : Plan α) (sampled values : Table α) : Except (TrialError α) (Trial α) :=
  let benefits := plan.horizon.growth.map (totalOf .benefit values plan.categories * ·)
  let costs := plan.horizon.efficiency.map (totalOf .cost values plan.categories * ·)
  let net := List.zipWith (· - ·) benefits costs
  match plan.horizon.usableRate values with
  | .error fault => .error (.horizon fault)
  | .ok rate =>
    match discount net rate with
    | .error e => .error (.arithmetic e)
    | .ok npv =>
      match paybackMonths? benefits costs with
      | none => .error .emptyHorizon
      | some payback =>
        .ok {
          sampled, values, benefits, costs, net, npv, payback
          contributions :=
            Table.ofEntries (plan.categories.map fun c => (c.id, c.contribution values)) }

/-- The outcome of a trial with the given input values. -/
def Plan.settle (plan : Plan α) (sampled : Table α) : Except (TrialError α) (Trial α) :=
  match plan.complete sampled with
  | .error e => .error (.eval e)
  | .ok values => plan.rollUp sampled values

def Plan.trial (plan : Plan α) : Sampler σ (TrialError α) (Trial α) := fun s =>
  match sampleInputs plan.inputs s with
  | (.error e, s) => (.error (.sampling e), s)
  | (.ok sampled, s) => (plan.settle (Table.ofEntries sampled), s)

end BusinessCase
