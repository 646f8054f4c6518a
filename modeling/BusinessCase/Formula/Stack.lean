/-
BusinessCase.Formula.Stack — the room that reading and evaluating take.

What is open while a formula is read or evaluated stands on a stack of a fixed
size, on top of what its caller has there already. The limits keep formulas
far below it, unless they are set very high. Reading then stops where the
stack is full, and so it does where a limit that is needed is no number.

  §1 Reading    — `placesOf`, `ReadStop`, `readStop?`.
  §2 Evaluation — `Expr.places`, `Expr.outcome`.
-/
import BusinessCase.Formula.Evaluator
import BusinessCase.Formula.Frames
import BusinessCase.Value.Shown

namespace BusinessCase.Formula

/-! ## §1 Reading -/

/-- The places for what is open where an operand is read. -/
def operandPlaces : Nat := 985

/-- An error takes two places more than an operand, so what leaves these free is enough for whatever
is read. -/
def readingPlaces : Nat := operandPlaces - 2

/-- What stops the reading of a formula, whatever follows. -/
inductive ReadStop where
  /-- A count is held against a limit that is no number. -/
  | limitNotANumber
  /-- More is open than the stack has places for. -/
  | stackExhausted
  deriving DecidableEq

/-- The places that an open frame takes: one for each rule of the grammar that is entered between a
frame and the operand inside it. -/
def Frame.places : Frame → Nat
  | sum _ _ | product _ _ => 0
  | sign _ => 1
  | group => 4
  | call _ _ => 5

/-- The places that all open frames take. -/
def placesOf (stack : List Frame) : Nat := (stack.map Frame.places).foldl (· + ·) 0

/-- The places that are needed where a token is read. Behind an operand, and where a call ends
before it has an argument, that is no more than has been needed already. -/
def placesAt (stack : List Frame) (mode : Mode) (token : Token) : Nat :=
  match mode with
  | .operand => placesOf stack
  | .firstArgument => if token.kind = .rightParen then 0 else placesOf stack
  | .named _ | .operator _ => 0

def Mode.startsOperand : Mode → Bool
  | operand | firstArgument => true
  | named _ | operator _ => false

/-- The places that an error takes besides those of what is open. One about a sign is made a rule
further out than others, and one behind an operand needs no more than the operand did. -/
def ParseError.places (mode : Mode) : ParseError → Nat
  | tooNested token _ => if token.kind = .operator then 1 else 2
  | endOfInput _ | unexpected _ => if mode.startsOperand then 2 else 0
  | tooDeep _ | tooLong _ | badNumeral _ => 0

/-- An error in the tokens ends the reading, unless the stack has no room for it. -/
def errorStop? (limits : Limits) (stack : List Frame) (mode : Mode) (e : ParseError) :
    Option ReadStop :=
  if operandPlaces < placesOf stack + e.places mode + limits.taken then some .stackExhausted
  else none

/-- What stops the reading of the tokens that are left. -/
def readStopFrom? (limits : Limits) (length : Nat) (stack : List Frame) (mode : Mode) :
    List Token → Option ReadStop
  | [] =>
    match finish length stack mode with
    | .ok _ => if limits.depth.isComparable then none else some .limitNotANumber
    | .error e => errorStop? limits stack mode e
  | token :: rest =>
    match step limits stack mode token with
    | .error e => errorStop? limits stack mode e
    | .ok (after, next) =>
      if operandPlaces < placesAt stack mode token + limits.taken then some .stackExhausted
      else if nesting stack < nesting after && !limits.nesting.isComparable then
        some .limitNotANumber
      else readStopFrom? limits length after next rest

/-- What stops the reading of a list of tokens. -/
def parseStop? (limits : Limits) (length : Nat) (tokens : List Token) : Option ReadStop :=
  readStopFrom? limits length [] .operand tokens

def readStop? (limits : Limits) (expression : String) : Option ReadStop :=
  if !limits.expressionLength.isComparable then some .limitNotANumber
  else if exceeds (Text.size expression) limits.expressionLength then none
  else match tokens expression with
    | .error _ => none
    | .ok tokens => parseStop? limits expression.length tokens

/-! ## §2 Evaluation -/

/-- The places for what is open while a formula is evaluated. -/
def evaluationPlaces : Nat := 995

namespace Expr

variable {α : Type}

mutual

/-- The places that an evaluation takes at most: one for a node, one for the arguments of a call,
three for applying a function, and eight for looking up a name and seeing what kind of value it
stands for. The arguments of an unknown function are not evaluated. -/
def places : Expr α → Nat
  | number _ | foreign => 1
  | reference _ => 9
  | unary _ argument => places argument + 1
  | binary _ left right => max (places left) (places right) + 1
  | call callee arguments =>
    if (Builtin.ofName? callee).isSome then max (placesAll arguments + 2) 5 else 2

/-- The most places that one of several evaluations takes. -/
def placesAll : List (Expr α) → Nat
  | [] => 0
  | e :: rest => max (places e) (placesAll rest)

end

/-- Does the stack have room for the evaluation, so many places being taken already? -/
def fits (taken : Nat) (e : Expr α) : Bool := e.places + taken ≤ evaluationPlaces

variable [Scalar α]

/-- The outcome of an evaluation with so many places of the stack taken. -/
def outcome (taken : Nat) (e : Expr α) (look : String → Except EvalError α) : Except EvalError α :=
  if e.fits taken then e.eval look else .error .stackExhausted

/-- The value of a formula on an empty stack. An error that tells a value takes room for writing it
out as well. -/
def value (e : Expr α) (look : String → Except EvalError α) : Except EvalError α :=
  match e.outcome 0 look with
  | .error (.nonNumeric name value) =>
    if e.fits value.places then .error (.nonNumeric name value) else .error .stackExhausted
  | outcome => outcome

end Expr

end BusinessCase.Formula
