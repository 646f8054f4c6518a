/-
BusinessCase.Proofs.Formula.Frames — reading tokens with a stack of frames.

`parseFrom` makes the same trees as the rules of the parser, but keeps what is
open on a stack, so that a run over the tokens can be cut at any place. That is
where the inductions over tokens and derivations go.

  §1 Run    — `parseFrom`.
  §2 Frames — `Settled`, `Fresh`, and closing frames.
  §3 Tokens — one step for each place of a token.
-/
import BusinessCase.Formula.Frames
import BusinessCase.Proofs.Formula.Grammar

namespace BusinessCase.Formula

variable {limits : Limits} {length : Nat} {stack : List Frame} {e : Expr Float}

/-! ## §1 Run -/

/-- Reads the tokens that are left. -/
def parseFrom (limits : Limits) (length : Nat) (stack : List Frame) (mode : Mode) :
    List Token → Except ParseError (Expr Float)
  | [] => finish length stack mode
  | token :: rest =>
    match step limits stack mode token with
    | .ok (stack, mode) => parseFrom limits length stack mode rest
    | .error error => .error error

/-! ## §2 Frames -/

/-- Nothing is open that an operand completes at once. -/
def Settled : List Frame → Prop
  | .sign _ :: _ | .product _ _ :: _ => False
  | _ => True

/-- Nothing is open but parentheses and calls, so that a sum can start. -/
def Fresh : List Frame → Prop
  | .sign _ :: _ | .product _ _ :: _ | .sum _ _ :: _ => False
  | _ => True

theorem Fresh.settled (h : Fresh stack) : Settled stack := by
  cases stack with
  | nil => trivial
  | cons frame rest => cases frame <;> trivial

theorem settle_of_settled (h : Settled stack) (e : Expr Float) :
    settle stack e = (stack, e) := by
  cases stack with
  | nil => rfl
  | cons frame rest => cases frame <;> first | rfl | exact h.elim

theorem closeSum_of_fresh (h : Fresh stack) (e : Expr Float) : closeSum stack e = (stack, e) := by
  cases stack with
  | nil => rfl
  | cons frame rest => cases frame <;> first | rfl | exact h.elim

theorem complete_of_settled (h : Settled stack) (e : Expr Float) :
    complete stack e = (stack, .operator e) := by
  rw [complete, settle_of_settled h]

theorem complete_sign (op : Operator) (stack : List Frame) (e : Expr Float) :
    complete (.sign op :: stack) e = complete stack (.unary op e) := rfl

theorem complete_product (left : Expr Float) (op : Operator) (stack : List Frame)
    (e : Expr Float) :
    complete (.product left op :: stack) e = complete stack (.binary op left e) := rfl

theorem nesting_cons_nests {frame : Frame} (nests : frame.nests = true) (stack : List Frame) :
    nesting (frame :: stack) = nesting stack + 1 := by
  simp [nesting, nests]

/-! ## §3 Tokens -/

theorem parseFrom_cons {mode after : Mode} {stack' : List Frame} {t : Token}
    (h : step limits stack mode t = .ok (stack', after)) (rest : List Token) :
    parseFrom limits length stack mode (t :: rest) =
      parseFrom limits length stack' after rest := by
  rw [parseFrom, h]

theorem openFrame_ok {t : Token} {frame : Frame} {mode : Mode}
    (room : exceeds (nesting stack + 1) limits.nesting = false) :
    openFrame limits t frame mode stack = .ok (frame :: stack, mode) := by
  rw [openFrame, room]
  rfl

theorem sumSigns_contains {t : Token} (h : t.IsSumSign) : sumSigns.contains t.text = true := by
  rcases h.2 with text | text <;> rw [text] <;> decide

theorem productSigns_contains {t : Token} (h : t.IsProductSign) :
    productSigns.contains t.text = true := by
  rcases h.2 with text | text <;> rw [text] <;> decide

theorem not_productSigns_contains {t : Token} (h : t.IsSumSign) :
    ¬ productSigns.contains t.text = true := by
  rcases h.2 with text | text <;> rw [text] <;> decide

theorem step_sign {t : Token} (h : t.IsSumSign)
    (room : exceeds (nesting stack + 1) limits.nesting = false) :
    step limits stack .operand t = .ok (.sign (.ofSign t.text) :: stack, .operand) := by
  rw [step, stepOperand, h.1]
  simp only [sumSigns_contains h, if_true]
  exact openFrame_ok room

theorem step_times {t : Token} (h : t.IsProductSign) :
    step limits stack (.operator e) t = .ok (.product e (.ofSign t.text) :: stack, .operand) := by
  rw [step, stepOperator, h.1]
  simp only [productSigns_contains h, if_true]

theorem step_plus {t : Token} (h : t.IsSumSign) {below : List Frame} {left : Expr Float}
    (closed : closeSum stack e = (below, left)) :
    step limits stack (.operator e) t = .ok (.sum left (.ofSign t.text) :: below, .operand) := by
  rw [step, stepOperator, h.1]
  simp only [not_productSigns_contains h, sumSigns_contains h, closed, if_true,
    Bool.false_eq_true, if_false]

theorem step_closing_group {t : Token} (h : t.kind = .rightParen) {below : List Frame}
    {inside : Expr Float} (closed : closeSum stack e = (.group :: below, inside)) :
    step limits stack (.operator e) t = .ok (complete below inside) := by
  rw [step, stepOperator, h]
  simp only [closed]

theorem step_closing_call {t : Token} (h : t.kind = .rightParen) {below : List Frame}
    {callee : String} {done : List (Expr Float)} {last : Expr Float}
    (closed : closeSum stack e = (.call callee done :: below, last)) :
    step limits stack (.operator e) t = .ok (complete below (.call callee (done ++ [last]))) := by
  rw [step, stepOperator, h]
  simp only [closed]

theorem step_comma {t : Token} (h : t.kind = .comma) {below : List Frame} {callee : String}
    {done : List (Expr Float)} {last : Expr Float}
    (closed : closeSum stack e = (.call callee done :: below, last)) :
    step limits stack (.operator e) t = .ok (.call callee (done ++ [last]) :: below, .operand) := by
  rw [step, stepOperator, h]
  simp only [closed]

theorem step_firstArgument {t : Token} (kind : t.kind ≠ .rightParen) :
    step limits stack .firstArgument t = step limits stack .operand t := by
  rw [step, step]
  intro _ _ _ closes
  exact absurd closes kind

/-- The first argument of a call is read like any operand. -/
theorem parseFrom_firstArgument {ts : List Token} (h : StartsInside ts) :
    parseFrom limits length stack .firstArgument ts =
      parseFrom limits length stack .operand ts := by
  obtain ⟨t, rest, rfl, kind⟩ := h
  rw [parseFrom, parseFrom, step_firstArgument kind]

/-- What can stand behind a phrase without becoming part of a call. -/
def CanFollow : List Token → Prop
  | [] => True
  | t :: _ => t.kind ≠ .leftParen

theorem step_named {t : Token} (kind : t.kind ≠ .leftParen) (name : String) :
    step limits stack (.named name) t =
      step limits (complete stack (.reference name)).1 (complete stack (.reference name)).2 t := by
  simp only [step, kind, if_false]
  rfl

/-- A name that no parenthesis follows is a reference. -/
theorem parseFrom_named {rest : List Token} (follow : CanFollow rest) (name : String) :
    parseFrom limits length stack (.named name) rest =
      parseFrom limits length (complete stack (.reference name)).1
        (complete stack (.reference name)).2 rest := by
  cases rest with
  | nil => rfl
  | cons t rest =>
    rw [parseFrom, parseFrom, step_named follow]

end BusinessCase.Formula
