/-
BusinessCase.Formula.Parser — tokens to trees.

Sums bind weaker than products, products weaker than signs, and sums and
products group to the left:

    sum     ::= product | sum (+|-) product
    product ::= signed  | product (*|/) signed
    signed  ::= (+|-) signed | primary
    primary ::= number | name | name ( [sum (, sum)*] ) | ( sum )

Each rule is a function that reads its phrase from the front of the tokens and
returns the tree with what is left. It never looks further than one token
ahead. Sums and products are loops that put each further operand on the right
of what was read so far.

  §1 Errors — `ParseError`.
  §2 Cursor — the tokens that are left and what is open; `Parsed`.
  §3 Rules  — one function for each rule.
  §4 Whole  — `parse` for tokens, `read` for text.
-/
import BusinessCase.Decimal.Numeral
import BusinessCase.Formula.Expr
import BusinessCase.Formula.Limits
import BusinessCase.Formula.Token

namespace BusinessCase.Formula

/-! ## §1 Errors -/

/-- Why tokens are no formula. -/
inductive ParseError where
  /-- The formula ends where something has to follow. -/
  | endOfInput (offset : Nat)
  /-- The token cannot stand where it does. -/
  | unexpected (token : Token)
  /-- With this token more is open at once than the limit allows. -/
  | tooNested (token : Token) (limit : Value)
  /-- The tree is higher than the limit allows. -/
  | tooDeep (limit : Value)
  /-- The formula has more characters than the limit allows. -/
  | tooLong (limit : Value)
  /-- The text of a number token is no number. -/
  | badNumeral (text : String)

/-- Why a text is no formula. -/
inductive SyntaxError where
  | lex (error : LexError)
  | parse (error : ParseError)

/-! ## §2 Cursor -/

/-- How far the tokens have been read. -/
structure Cursor where
  tokens : List Token
  /-- How many parentheses, calls and signs are open. -/
  nesting : Nat

/-- What is open once something opens at a token, unless that nests too deep. -/
def enter (limits : Limits) (token : Token) (nesting : Nat) : Except ParseError Nat :=
  if exceeds (nesting + 1) limits.nesting then .error (.tooNested token limits.nesting)
  else .ok (nesting + 1)

namespace Cursor

def leave (here : Cursor) : Cursor := { here with nesting := here.nesting - 1 }

/-- The error of a token that cannot stand here, or of input that ends here. -/
def failure (length : Nat) (here : Cursor) : ParseError :=
  match here.tokens with
  | [] => .endOfInput length
  | token :: _ => .unexpected token

end Cursor

/-- What was read of fewer than `bound` tokens' worth of input, and the cursor behind it. -/
structure Parsed (β : Type) (bound : Nat) where
  value : β
  after : Cursor
  shorter : after.tokens.length < bound

/-- Texts of an operator token that are signs and sum operators: the contiguous parts of `+-`. -/
def sumSigns : List String := ["+", "-", "+-", ""]

/-- Texts of an operator token that are product operators: the contiguous parts of `*/`. -/
def productSigns : List String := ["*", "/", "*/", ""]

def Token.isOperator (signs : List String) (token : Token) : Bool :=
  token.kind = .operator && signs.contains token.text

/-! ## §3 Rules -/

mutual

/-- A sum: a product, then more of them behind sum operators. -/
def readSum (limits : Limits) (length : Nat) (here : Cursor) :
    Except ParseError (Parsed (Expr Float) here.tokens.length) := do
  let first ← readProduct limits length here
  readSumRest limits length first.value first.after first.shorter
termination_by (here.tokens.length, 4)
decreasing_by
  · exact .right _ (by decide)
  · exact .left _ _ first.shorter

def readSumRest (limits : Limits) (length : Nat) {bound : Nat} (left : Expr Float) :
    (here : Cursor) → here.tokens.length < bound → Except ParseError (Parsed (Expr Float) bound)
  | ⟨token :: rest, nesting⟩, shorter => do
    if token.isOperator sumSigns then
      let right ← readProduct limits length ⟨rest, nesting⟩
      readSumRest limits length (.binary (.ofSign token.text) left right.value) right.after
        (Nat.lt_trans right.shorter (Nat.lt_of_succ_lt shorter))
    else .ok ⟨left, ⟨token :: rest, nesting⟩, shorter⟩
  | ⟨[], nesting⟩, shorter => .ok ⟨left, ⟨[], nesting⟩, shorter⟩
termination_by here => (here.tokens.length, 0)
decreasing_by
  · exact .left _ _ (by simp)
  · exact .left _ _ (Nat.lt_succ_of_lt right.shorter)

/-- A product: a signed operand, then more of them behind product operators. -/
def readProduct (limits : Limits) (length : Nat) (here : Cursor) :
    Except ParseError (Parsed (Expr Float) here.tokens.length) := do
  let first ← readSigned limits length here
  readProductRest limits length first.value first.after first.shorter
termination_by (here.tokens.length, 3)
decreasing_by
  · exact .right _ (by decide)
  · exact .left _ _ first.shorter

def readProductRest (limits : Limits) (length : Nat) {bound : Nat} (left : Expr Float) :
    (here : Cursor) → here.tokens.length < bound → Except ParseError (Parsed (Expr Float) bound)
  | ⟨token :: rest, nesting⟩, shorter => do
    if token.isOperator productSigns then
      let right ← readSigned limits length ⟨rest, nesting⟩
      readProductRest limits length (.binary (.ofSign token.text) left right.value) right.after
        (Nat.lt_trans right.shorter (Nat.lt_of_succ_lt shorter))
    else .ok ⟨left, ⟨token :: rest, nesting⟩, shorter⟩
  | ⟨[], nesting⟩, shorter => .ok ⟨left, ⟨[], nesting⟩, shorter⟩
termination_by here => (here.tokens.length, 0)
decreasing_by
  · exact .left _ _ (by simp)
  · exact .left _ _ (Nat.lt_succ_of_lt right.shorter)

/-- An operand with any number of signs before it. -/
def readSigned (limits : Limits) (length : Nat) :
    (here : Cursor) → Except ParseError (Parsed (Expr Float) here.tokens.length)
  | ⟨token :: rest, nesting⟩ => do
    if token.isOperator sumSigns then
      let inner ← enter limits token nesting
      let operand ← readSigned limits length ⟨rest, inner⟩
      .ok ⟨.unary (.ofSign token.text) operand.value, operand.after.leave,
        Nat.lt_succ_of_lt operand.shorter⟩
    else readPrimary limits length ⟨token :: rest, nesting⟩
  | ⟨[], nesting⟩ => readPrimary limits length ⟨[], nesting⟩
termination_by here => (here.tokens.length, 2)
decreasing_by
  · exact .left _ _ (by simp)
  · exact .right _ (by decide)
  · exact .right _ (by decide)

/-- A number, a reference, a call or a sum in parentheses. -/
def readPrimary (limits : Limits) (length : Nat) :
    (here : Cursor) → Except ParseError (Parsed (Expr Float) here.tokens.length)
  | ⟨[], nesting⟩ => .error (Cursor.failure length ⟨[], nesting⟩)
  | ⟨token :: rest, nesting⟩ =>
    match token.kind with
    | .number =>
      match Decimal.readFloat? token.text with
      | some x => .ok ⟨.number x, ⟨rest, nesting⟩, by simp⟩
      | none => .error (.badNumeral token.text)
    | .identifier =>
      match rest with
      | opening :: rest => do
        if opening.kind = .leftParen then
          let inner ← enter limits opening nesting
          let arguments ← readArguments limits length ⟨rest, inner⟩
          .ok ⟨.call token.text arguments.value, arguments.after.leave,
            Nat.lt_add_right 2 arguments.shorter⟩
        else .ok ⟨.reference token.text, ⟨opening :: rest, nesting⟩, by simp⟩
      | [] => .ok ⟨.reference token.text, ⟨[], nesting⟩, by simp⟩
    | .leftParen => do
      let inner ← enter limits token nesting
      let sum ← readSum limits length ⟨rest, inner⟩
      match sum with
      | ⟨value, ⟨closing :: behind, inner⟩, shorter⟩ =>
        if closing.kind = .rightParen then
          .ok ⟨value, Cursor.leave ⟨behind, inner⟩,
            Nat.lt_succ_of_lt (Nat.lt_of_succ_lt shorter)⟩
        else .error (.unexpected closing)
      | ⟨_, ⟨[], _⟩, _⟩ => .error (.endOfInput length)
    | .operator | .rightParen | .comma => .error (Cursor.failure length ⟨token :: rest, nesting⟩)
termination_by here => (here.tokens.length, 1)
decreasing_by
  · exact .left _ _ (by simp only [List.length_cons]; omega)
  · exact .left _ _ (by simp)

/-- The arguments of a call and the parenthesis that closes it. -/
def readArguments (limits : Limits) (length : Nat) :
    (here : Cursor) → Except ParseError (Parsed (List (Expr Float)) here.tokens.length)
  | ⟨token :: rest, nesting⟩ =>
    if token.kind = .rightParen then .ok ⟨[], ⟨rest, nesting⟩, by simp⟩
    else readArgumentsFrom limits length [] ⟨token :: rest, nesting⟩ (Nat.le_refl _)
  | ⟨[], nesting⟩ => readArgumentsFrom limits length [] ⟨[], nesting⟩ (Nat.le_refl _)
termination_by here => (here.tokens.length, 6)

/-- The arguments that are left, one at least. -/
def readArgumentsFrom (limits : Limits) (length : Nat) {bound : Nat} (done : List (Expr Float))
    (here : Cursor) (within : here.tokens.length ≤ bound) :
    Except ParseError (Parsed (List (Expr Float)) bound) := do
  match ← readSum limits length here with
  | ⟨argument, ⟨token :: rest, nesting⟩, shorter⟩ =>
    if token.kind = .comma then
      readArgumentsFrom limits length (done ++ [argument]) ⟨rest, nesting⟩
        (by simp at shorter ⊢; omega)
    else if token.kind = .rightParen then
      .ok ⟨done ++ [argument], ⟨rest, nesting⟩, by simp at shorter ⊢; omega⟩
    else .error (.unexpected token)
  | ⟨_, ⟨[], _⟩, _⟩ => .error (.endOfInput length)
termination_by (here.tokens.length, 5)
decreasing_by
  · exact .right _ (by decide)
  · exact .left _ _ (by simp at shorter; omega)

end

/-! ## §4 Whole -/

/-- The tree of a list of tokens; `length` is where input that ends too early is reported. -/
def parse (limits : Limits) (length : Nat) (tokens : List Token) :
    Except ParseError (Expr Float) := do
  let whole ← readSum limits length ⟨tokens, 0⟩
  if !whole.after.tokens.isEmpty then .error (whole.after.failure length)
  else if exceeds (whole.value.depth.getD 0) limits.depth then .error (.tooDeep limits.depth)
  else .ok whole.value

def read (limits : Limits) (expression : String) : Except SyntaxError (Expr Float) :=
  if exceeds (Text.size expression) limits.expressionLength then
    .error (.parse (.tooLong limits.expressionLength))
  else
    match tokens expression with
    | .error error => .error (.lex error)
    | .ok tokens =>
      match parse limits expression.length tokens with
      | .error error => .error (.parse error)
      | .ok e => .ok e

end BusinessCase.Formula
