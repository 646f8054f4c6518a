/-
BusinessCase.Simulation.CashFlow — the worth of yearly flows, and when they pay back.

`discount` counts the flow of year `t` for `1 / (1 + rate) ^ t`.
`paybackMonths?` finds the month in which the costs of the first year have come
back, each year's net flow being spread evenly over its months.
-/
import BusinessCase.Scalar

namespace BusinessCase

open Scalar

variable {α : Type} [Scalar α]

/-! ## Discounting -/

/-- The flow of each year, divided by one plus the rate to the power of the year. -/
def discountedFlows (rate : α) : (year : Nat) → List α → Except ArithmeticError (List α)
  | _, [] => .ok []
  | year, flow :: rest => do
    let growth ← powerNat (nat 1 + rate) year
    let worth ← divide flow growth
    let others ← discountedFlows rate (year + 1) rest
    .ok (worth :: others)

/-- The worth today of yearly flows, the first a year from now; no number where the rate is none,
or where it takes everything away. -/
def discount (flows : List α) (rate : α) : Except ArithmeticError α :=
  if isNaN rate || eq (nat 1 + rate) (nat 0) then .ok nan
  else do
    let worths ← discountedFlows rate 1 flows
    .ok (sumLeft worths)

/-! ## Payback -/

/-- When costs have come back. -/
inductive Payback where
  /-- Some flow is no number. -/
  | unknown
  | months (count : Nat)
  deriving DecidableEq

def Payback.toScalar : Payback → α
  | unknown => nan
  | months count => nat count

/-- The first month, counted on from `month`, after which the balance is not below zero. -/
def recoveryMonth? (balance : α) (month : Nat) : List α → Option Nat
  | [] => none
  | flow :: rest =>
    let balance := balance + flow
    if le (nat 0) balance then some (month + 1) else recoveryMonth? balance (month + 1) rest

/-- The net flow of every month: twelve equal parts of each year's. -/
def monthlyFlows (benefits costs : List α) : List α :=
  (List.zipWith (fun benefit cost => (benefit - cost) / nat 12) benefits costs).flatMap
    (List.replicate 12)

/-- The month in which the costs of the first year have come back, all months if they never do, and
nothing where there is no first year. -/
def paybackMonths? (benefits costs : List α) : Option Payback :=
  if benefits.any isNaN || costs.any isNaN then some .unknown
  else match costs with
    | [] => none
    | first :: _ =>
      match recoveryMonth? (-first) 0 (monthlyFlows benefits costs) with
      | some month => some (.months month)
      | none => some (.months (12 * benefits.length))

end BusinessCase
