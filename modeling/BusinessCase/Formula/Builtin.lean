/-
BusinessCase.Formula.Builtin — the functions and constants of formulas.

  §1 Functions — names, argument counts, meaning.
  §2 Constants — names that stand for a number unless data carries them.
-/
import BusinessCase.Scalar
import BusinessCase.Text.Case

namespace BusinessCase.Formula

/-! ## §1 Functions -/

/-- The built-in functions. -/
inductive Builtin where
  | least
  | greatest
  | sum
  | average
  | ifNull
  deriving DecidableEq

namespace Builtin

/-- The function of that name, capital and small letters alike. -/
def ofName? (name : String) : Option Builtin :=
  let folded := Text.lower name
  if folded = "min" then some least
  else if folded = "max" then some greatest
  else if folded = "sum" then some sum
  else if folded = "avg" || folded = "average" then some average
  else if folded = "ifnull" then some ifNull
  else none

def arity : Builtin → Nat × Option Nat
  | least | greatest | average => (1, none)
  | sum => (0, none)
  | ifNull => (2, some 2)

def accepts (f : Builtin) (count : Nat) : Bool :=
  f.arity.1 ≤ count && f.arity.2.all (count ≤ ·)

def arityText (f : Builtin) : String :=
  match f.arity with
  | (low, none) => "at least " ++ toString low
  | (low, some high) =>
    if high = low then toString low else toString low ++ "-" ++ toString high

variable {α : Type} [Scalar α]

/-- The value of a function. Arguments that are no number count as missing: the least, greatest and
mean of no number at all are no number, the sum of none is zero. -/
def apply (f : Builtin) (args : List α) : Except ArithmeticError α :=
  let known := args.filter (fun x => !Scalar.isNaN x)
  match f with
  | least => match known with
    | [] => .ok Scalar.nan
    | x :: rest => .ok (Scalar.least x rest)
  | greatest => match known with
    | [] => .ok Scalar.nan
    | x :: rest => .ok (Scalar.greatest x rest)
  | sum => Scalar.exactSum known
  | average => match known with
    | [] => .ok Scalar.nan
    | _ => match Scalar.exactSum known with
      | .ok total => .ok (total / Scalar.nat known.length)
      | .error e => .error e
  | ifNull => match args with
    | [] => .ok Scalar.nan
    | x :: rest => .ok (if Scalar.isNaN x then rest.headD Scalar.nan else x)

end Builtin

/-! ## §2 Constants -/

/-- Names that formulas may use without any data. -/
def constantNames : List String := ["pi", "e"]

def constant? {α : Type} [Scalar α] (name : String) : Option α :=
  if name = "pi" then some Scalar.pi else if name = "e" then some Scalar.euler else none

end BusinessCase.Formula
