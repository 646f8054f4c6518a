/-
BusinessCase.Formula.Evaluator — the number that a formula stands for.

What is not known is no number, and so is everything computed from it: a
missing reference, a division by zero, an unknown function. Only the built-in
functions can leave such an argument out. A value of the wrong kind is an
error, and so is a sum beyond the range of numbers.

  §1 Cells      — what a table holds under a name.
  §2 Operators  — signs and binary operators.
  §3 Evaluation — `Expr.eval`.
-/
import BusinessCase.Formula.Builtin
import BusinessCase.Formula.Expr
import BusinessCase.Value

namespace BusinessCase.Formula

/-- Why a formula has no value at all. -/
inductive EvalError where
  /-- A name refers to something that is no number. -/
  | nonNumeric (name : String) (value : Value)
  | arithmetic (error : ArithmeticError)
  | foreignNode
  | stackExhausted

/-! ## §1 Cells -/

/-- What a table holds under a name. -/
inductive Cell (α : Type) where
  | number (x : α)
  /-- The name is there, but nothing is known about it. -/
  | absent
  /-- Something that is no number of type `α`. -/
  | other (value : Value)

def Cell.ofValue : Value → Cell Float
  | .null => .absent
  | .float x => .number x
  | .int n => match Value.ofInt? n with
    | some x => .number x
    | none => .other (.int n)
  | value => .other value

variable {α : Type} [Scalar α]

/-- The number in a cell that is known under `name`. -/
def Cell.read (name : String) : Cell α → Except EvalError α
  | number x => .ok x
  | absent => .ok Scalar.nan
  | other (.int _) => .error (.arithmetic .overflow)
  | other value => .error (.nonNumeric name value)

/-- What a name stands for: its cell, or else the constant of that name, or else no number. -/
def resolve (find : String → Option (Cell α)) (name : String) : Except EvalError α :=
  match find name with
  | some cell => cell.read name
  | none => .ok ((constant? name).getD Scalar.nan)

/-! ## §2 Operators -/

/-- A sign before a number; every sign but the minus changes nothing. -/
def Operator.applySign (op : Operator) (x : α) : α :=
  if Scalar.isNaN x then Scalar.nan
  else match op with
    | minus => -x
    | _ => x

/-- An operator between two numbers; a quotient by zero is no number. -/
def Operator.apply (op : Operator) (x y : α) : α :=
  if Scalar.isNaN x || Scalar.isNaN y then Scalar.nan
  else match op with
    | plus => x + y
    | minus => x - y
    | times => x * y
    | divide => if Scalar.eq y (Scalar.nat 0) then Scalar.nan else x / y
    | other _ => Scalar.nan

/-! ## §3 Evaluation -/

namespace Expr

mutual

/-- The value of a formula, operands and arguments from left to right. The arguments of an unknown
function are not looked at. -/
def eval (look : String → Except EvalError α) : Expr α → Except EvalError α
  | number x => .ok x
  | reference name => look name
  | unary op argument =>
    match eval look argument with
    | .ok x => .ok (op.applySign x)
    | .error e => .error e
  | binary op left right =>
    match eval look left with
    | .error e => .error e
    | .ok x =>
      match eval look right with
      | .error e => .error e
      | .ok y => .ok (op.apply x y)
  | call callee arguments =>
    match Builtin.ofName? callee with
    | none => .ok Scalar.nan
    | some f =>
      match evalAll look arguments with
      | .error e => .error e
      | .ok xs => (f.apply xs).mapError .arithmetic
  | foreign => .error .foreignNode

/-- The values of several formulas; the first that has none decides. -/
def evalAll (look : String → Except EvalError α) : List (Expr α) → Except EvalError (List α)
  | [] => .ok []
  | e :: rest =>
    match eval look e with
    | .error error => .error error
    | .ok x =>
      match evalAll look rest with
      | .error error => .error error
      | .ok xs => .ok (x :: xs)

end

end Expr

end BusinessCase.Formula
