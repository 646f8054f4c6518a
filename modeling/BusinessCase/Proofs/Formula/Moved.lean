/-
BusinessCase.Proofs.Formula.Moved — tokens at other places.

Reading looks at the kinds and texts of tokens and never at their places, so
tokens that stand elsewhere are read in the same way: they have the same tree,
or an error at the place to which its token has moved.

  §1 Places  — `Token.moved`, `ParseError.moved`.
  §2 Frames  — one token, and all of them: `parseFrom_moved`.
  §3 Reading — `parse_moved` and `parseStop?_moved`.
-/
import BusinessCase.Formula.Stack
import BusinessCase.Proofs.Formula.Descent

namespace BusinessCase.Formula

variable {limits : Limits} {length : Nat} {stack : List Frame} {mode : Mode}

/-! ## §1 Places -/

/-- The token at another place. -/
def Token.moved (move : Nat → Nat) (t : Token) : Token := { t with offset := move t.offset }

@[simp] theorem Token.moved_kind (move : Nat → Nat) (t : Token) : (t.moved move).kind = t.kind := rfl

@[simp] theorem Token.moved_text (move : Nat → Nat) (t : Token) : (t.moved move).text = t.text := rfl

/-- The same error where the tokens stand elsewhere. -/
def ParseError.moved (move : Nat → Nat) : ParseError → ParseError
  | .endOfInput offset => .endOfInput (move offset)
  | .unexpected t => .unexpected (t.moved move)
  | .tooNested t limit => .tooNested (t.moved move) limit
  | .tooDeep limit => .tooDeep limit
  | .tooLong limit => .tooLong limit
  | .badNumeral text => .badNumeral text

/-! ## §2 Frames -/

theorem openFrame_moved (move : Nat → Nat) (t : Token) (frame : Frame) (inside : Mode) :
    openFrame limits (t.moved move) frame inside stack =
      (openFrame limits t frame inside stack).mapError (·.moved move) := by
  simp only [openFrame]
  split <;> rfl

theorem stepOperand_moved (move : Nat → Nat) (t : Token) :
    stepOperand limits stack (t.moved move) =
      (stepOperand limits stack t).mapError (·.moved move) := by
  unfold stepOperand
  simp only [Token.moved_kind, Token.moved_text, openFrame_moved]
  cases t.kind with
  | number =>
    dsimp only
    cases Decimal.readFloat? t.text <;> rfl
  | operator =>
    dsimp only
    cases sumSigns.contains t.text <;> rfl
  | _ => rfl

theorem stepOperator_moved (move : Nat → Nat) (e : Expr Float) (t : Token) :
    stepOperator stack e (t.moved move) = (stepOperator stack e t).mapError (·.moved move) := by
  unfold stepOperator
  simp only [Token.moved_kind, Token.moved_text]
  cases t.kind with
  | operator =>
    dsimp only
    by_cases product : t.text ∈ productSigns
    · simp [product, Except.mapError]
    · by_cases sum : t.text ∈ sumSigns
      · simp [product, sum, Except.mapError]
      · simp [product, sum, Except.mapError, ParseError.moved]
  | rightParen | comma =>
    dsimp only
    split <;> rfl
  | _ => rfl

/-- A step looks at the kind and the text of its token. -/
theorem step_moved (move : Nat → Nat) (t : Token) :
    step limits stack mode (t.moved move) = (step limits stack mode t).mapError (·.moved move) := by
  cases mode with
  | operand => exact stepOperand_moved move t
  | firstArgument =>
    simp only [step, Token.moved_kind]
    split
    · rfl
    · exact stepOperand_moved move t
  | named name =>
    simp only [step, Token.moved_kind]
    by_cases opens : t.kind = .leftParen
    · simp only [opens, if_true]
      exact openFrame_moved move t _ _
    · simp only [opens, if_false]
      exact stepOperator_moved move _ t
  | operator e => exact stepOperator_moved move e t

theorem finish_moved (move : Nat → Nat) :
    finish (move length) stack mode = (finish length stack mode).mapError (·.moved move) := by
  cases mode with
  | operand | firstArgument => rfl
  | named | operator =>
    simp only [finish]
    split <;> rfl

/-- **Tokens that stand elsewhere are read in the same way.** -/
theorem parseFrom_moved (move : Nat → Nat) (ts : List Token) :
    parseFrom limits (move length) stack mode (ts.map (·.moved move)) =
      (parseFrom limits length stack mode ts).mapError (·.moved move) := by
  induction ts generalizing stack mode with
  | nil => exact finish_moved move
  | cons t rest ih =>
    rw [List.map_cons, parseFrom, parseFrom, step_moved]
    cases step limits stack mode t with
    | error error => rfl
    | ok after => exact ih

/-! ## §3 Reading -/

/-- The same tree, or the same error at the place to which its token has moved. -/
theorem parse_moved (move : Nat → Nat) (ts : List Token) :
    parse limits (move length) (ts.map (·.moved move)) =
      (parse limits length ts).mapError (·.moved move) := by
  rw [parse_eq_parseFrom, parse_eq_parseFrom, parseFrom_moved]
  cases parseFrom limits length [] .operand ts with
  | error error => rfl
  | ok e =>
    simp only [Except.mapError]
    split <;> rfl

/-- An error takes the same places wherever its token stands. -/
theorem errorStop?_moved (move : Nat → Nat) (e : ParseError) :
    errorStop? limits stack mode (e.moved move) = errorStop? limits stack mode e := by
  cases e <;> rfl

theorem readStopFrom?_moved (move : Nat → Nat) (ts : List Token) :
    readStopFrom? limits (move length) stack mode (ts.map (·.moved move)) =
      readStopFrom? limits length stack mode ts := by
  induction ts generalizing stack mode with
  | nil =>
    rw [List.map_nil, readStopFrom?, readStopFrom?, finish_moved]
    cases finish length stack mode with
    | ok e => rfl
    | error e => exact errorStop?_moved move e
  | cons t rest ih =>
    rw [List.map_cons, readStopFrom?, readStopFrom?, step_moved]
    cases step limits stack mode t with
    | error e => exact errorStop?_moved move e
    | ok after =>
      have place : placesAt stack mode (t.moved move) = placesAt stack mode t := rfl
      simp only [Except.mapError, ih, place]

/-- The stack has room for tokens wherever they stand. -/
theorem parseStop?_moved (move : Nat → Nat) (ts : List Token) :
    parseStop? limits (move length) (ts.map (·.moved move)) = parseStop? limits length ts :=
  readStopFrom?_moved move ts

end BusinessCase.Formula
