/-
BusinessCase.Simulation.GivenFlow — cash flows as a payload gives them.

A flow is looked at only where it is needed, so a flow of a wrong kind matters
only if the ones before it do not settle the matter. The difference of two
whole numbers is formed exactly and rounded once.
-/
import BusinessCase.Scalar.Binary64
import BusinessCase.Simulation.CashFlow
import BusinessCase.Value

namespace BusinessCase

open Scalar

/-- Why given flows have no worth. -/
inductive FlowFault where
  | number (fault : Value.NumberFault)
  | arithmetic (error : ArithmeticError)
  /-- There is no first year. -/
  | noYears

namespace GivenFlow

/-- The whole number that a flow is, truth values being zero and one. -/
def whole? : Value → Option Int
  | .int n => some n
  | .bool b => some (if b then 1 else 0)
  | .null | .float _ | .text _ | .list _ | .object _ => none

def ofWhole (n : Int) : Except FlowFault Float :=
  match Value.ofInt? n with
  | some x => .ok x
  | none => .error (.number .tooLarge)

def double (flow : Value) : Except FlowFault Float :=
  match whole? flow with
  | some n => ofWhole n
  | none => flow.number.mapError .number

/-! ## Discounting -/

def worths (rate : Float) : (year : Nat) → List Value → Except FlowFault (List Float)
  | _, [] => .ok []
  | year, flow :: rest => do
    let growth ← (powerNat (1.0 + rate) year).mapError .arithmetic
    let x ← double flow
    let worth ← (divide x growth).mapError .arithmetic
    let others ← worths rate (year + 1) rest
    .ok (worth :: others)

/-- The worth today of given flows. A rate for which there is none settles that before any flow is
looked at. -/
def discount (flows : List Value) (rate : Value) : Except FlowFault Float := do
  let rate ← double rate
  if rate.isNaN || 1.0 + rate == 0.0 then .ok nan
  else
    let all ← worths rate 1 flows
    .ok (sumLeft all)

/-! ## Payback -/

def difference (benefit cost : Value) : Except FlowFault Float :=
  match whole? benefit, whole? cost with
  | some b, some c => ofWhole (b - c)
  | _, _ => do
    let b ← double benefit
    let c ← double cost
    .ok (b - c)

/-- Is one of the flows no number? The flows after it are not looked at. -/
def anyUnknown : List Value → Except FlowFault Bool
  | [] => .ok false
  | flow :: rest => do
    let x ← double flow
    if x.isNaN then .ok true else anyUnknown rest

/-- The first month after which the balance is not below zero, year by year. -/
def recovery? (balance : Float) (month : Nat) :
    List (Value × Value) → Except FlowFault (Option Nat)
  | [] => .ok none
  | (benefit, cost) :: rest => do
    let net ← difference benefit cost
    let flows := List.replicate 12 (net / 12.0)
    match recoveryMonth? balance month flows with
    | some found => .ok (some found)
    | none => recovery? (flows.foldl (· + ·) balance) (month + 12) rest

/-- The month in which the costs of the first year have come back, where all flows are numbers. -/
def recoveryOf (benefits costs : List Value) : Except FlowFault Payback :=
  match costs with
  | [] => .error .noYears
  | first :: _ => do
    let start ← double first
    let month ← recovery? (-start) 0 (benefits.zip costs)
    .ok (.months (month.getD (12 * benefits.length)))

def payback (benefits costs : List Value) : Except FlowFault Payback :=
  match anyUnknown benefits with
  | .error fault => .error fault
  | .ok true => .ok .unknown
  | .ok false =>
    match anyUnknown costs with
    | .error fault => .error fault
    | .ok true => .ok .unknown
    | .ok false => recoveryOf benefits costs

end GivenFlow

end BusinessCase
