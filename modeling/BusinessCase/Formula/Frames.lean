/-
BusinessCase.Formula.Frames — what is open while tokens are read.

The tokens are read once from left to right. What is still open stands on a
stack of frames, and the mode says what may come next; so an error points at
the first token that cannot follow.

  §1 Stack — `Frame`, `Mode`, and closing what an operand completes.
  §2 Steps — one token at a time.
-/
import BusinessCase.Formula.Parser

namespace BusinessCase.Formula

/-! ## §1 Stack -/

/-- What is open while an operand is read. -/
inductive Frame where
  /-- A sum that waits for its right side. -/
  | sum (left : Expr Float) (op : Operator)
  /-- A product that waits for its right side. -/
  | product (left : Expr Float) (op : Operator)
  | sign (op : Operator)
  | group
  /-- An open call with the arguments that are complete. -/
  | call (callee : String) (done : List (Expr Float))

/-- What the next token has to be. -/
inductive Mode where
  /-- Something that starts an operand. -/
  | operand
  /-- The same, or the end of a call that has no argument yet. -/
  | firstArgument
  /-- A parenthesis, which makes the name a call, or what may follow a reference. -/
  | named (name : String)
  /-- Something that goes on after, or closes, the operand. -/
  | operator (operand : Expr Float)

def Frame.nests : Frame → Bool
  | sign _ | group | call _ _ => true
  | sum _ _ | product _ _ => false

/-- How much is open at once. -/
def nesting (stack : List Frame) : Nat := stack.countP Frame.nests

/-- Closes the signs and the product that an operand completes. -/
def settle : List Frame → Expr Float → List Frame × Expr Float
  | .sign op :: stack, e => settle stack (.unary op e)
  | .product left op :: stack, e => settle stack (.binary op left e)
  | stack, e => (stack, e)

/-- Closes the sum that an operand completes. -/
def closeSum : List Frame → Expr Float → List Frame × Expr Float
  | .sum left op :: stack, e => (stack, .binary op left e)
  | stack, e => (stack, e)

/-- The operand is complete: the stack and mode after it. -/
def complete (stack : List Frame) (e : Expr Float) : List Frame × Mode :=
  let settled := settle stack e
  (settled.1, .operator settled.2)

/-! ## §2 Steps -/

def openFrame (limits : Limits) (token : Token) (frame : Frame) (mode : Mode)
    (stack : List Frame) : Except ParseError (List Frame × Mode) :=
  if exceeds (nesting stack + 1) limits.nesting then .error (.tooNested token limits.nesting)
  else .ok (frame :: stack, mode)

/-- A token where an operand has to start. -/
def stepOperand (limits : Limits) (stack : List Frame) (token : Token) :
    Except ParseError (List Frame × Mode) :=
  match token.kind with
  | .number =>
    match Decimal.readFloat? token.text with
    | some x => .ok (complete stack (.number x))
    | none => .error (.badNumeral token.text)
  | .identifier => .ok (stack, .named token.text)
  | .leftParen => openFrame limits token .group .operand stack
  | .operator =>
    if sumSigns.contains token.text then
      openFrame limits token (.sign (.ofSign token.text)) .operand stack
    else .error (.unexpected token)
  | .rightParen | .comma => .error (.unexpected token)

/-- A token after an operand whose signs and product are closed. -/
def stepOperator (stack : List Frame) (e : Expr Float) (token : Token) :
    Except ParseError (List Frame × Mode) :=
  match token.kind with
  | .operator =>
    if productSigns.contains token.text then
      .ok (.product e (.ofSign token.text) :: stack, .operand)
    else if sumSigns.contains token.text then
      let (stack, e) := closeSum stack e
      .ok (.sum e (.ofSign token.text) :: stack, .operand)
    else .error (.unexpected token)
  | .rightParen =>
    match closeSum stack e with
    | (.group :: stack, e) => .ok (complete stack e)
    | (.call callee done :: stack, e) => .ok (complete stack (.call callee (done ++ [e])))
    | _ => .error (.unexpected token)
  | .comma =>
    match closeSum stack e with
    | (.call callee done :: stack, e) => .ok (.call callee (done ++ [e]) :: stack, .operand)
    | _ => .error (.unexpected token)
  | .number | .identifier | .leftParen => .error (.unexpected token)

def step (limits : Limits) (stack : List Frame) (mode : Mode) (token : Token) :
    Except ParseError (List Frame × Mode) :=
  match mode with
  | .operand => stepOperand limits stack token
  | .firstArgument =>
    match token.kind, stack with
    | .rightParen, .call callee _ :: stack => .ok (complete stack (.call callee []))
    | _, stack => stepOperand limits stack token
  | .named name =>
    if token.kind = .leftParen then openFrame limits token (.call name []) .firstArgument stack
    else
      let settled := settle stack (.reference name)
      stepOperator settled.1 settled.2 token
  | .operator e => stepOperator stack e token

/-- The tree, if nothing is open any more. -/
def finish (length : Nat) (stack : List Frame) (mode : Mode) : Except ParseError (Expr Float) :=
  let last (stack : List Frame) (e : Expr Float) : Except ParseError (Expr Float) :=
    match closeSum stack e with
    | ([], e) => .ok e
    | _ => .error (.endOfInput length)
  match mode with
  | .operator e => last stack e
  | .named name =>
    let settled := settle stack (.reference name)
    last settled.1 settled.2
  | .operand | .firstArgument => .error (.endOfInput length)

end BusinessCase.Formula
