/-
BusinessCase.Proofs.Formula.Descent — the rules of the parser read what the
stack of frames reads.

A rule that starts where an operand has to stand does what the frames do from
the same place, whatever is open below: it fails where they fail, with the same
error, and else they go on behind the phrase, with its tree as the operand. A
rule leaves as much open as it found. The induction is on the number of tokens
left; within it a rule rests on the one below it.

  §1 Agreement — `Agrees`, and when one part follows another.
  §2 Rules     — what each rule has to do: `AgreesSum` and the others.
  §3 Steps     — tokens that end a phrase, and those that open something.
  §4 Descent   — each rule agrees; `parse_eq_parseFrom`.
-/
import BusinessCase.Proofs.Formula.Frames

namespace BusinessCase.Formula

variable {limits : Limits} {length : Nat} {stack : List Frame} {here : Cursor}

/-! ## §1 Agreement -/

/-- A run of the frames agrees with what a rule has read: it fails with the same error, or it goes
on behind what was read, of which `good` holds. -/
def Agrees {β : Type} {bound : Nat} (run : Except ParseError (Expr Float))
    (read : Except ParseError (Parsed β bound)) (good : Parsed β bound → Prop)
    (goesOn : Parsed β bound → Except ParseError (Expr Float)) : Prop :=
  match read with
  | .error error => run = .error error
  | .ok parsed => good parsed ∧ run = goesOn parsed

/-- One rule after another. -/
theorem Agrees.bind {β γ : Type} {bound bound' : Nat} {run : Except ParseError (Expr Float)}
    {read : Except ParseError (Parsed β bound)} {good : Parsed β bound → Prop}
    {goesOn : Parsed β bound → Except ParseError (Expr Float)}
    {next : Parsed β bound → Except ParseError (Parsed γ bound')} {good' : Parsed γ bound' → Prop}
    {goesOn' : Parsed γ bound' → Except ParseError (Expr Float)}
    (h : Agrees run read good goesOn)
    (then_ : ∀ parsed, good parsed → Agrees (goesOn parsed) (next parsed) good' goesOn') :
    Agrees run (read >>= next) good' goesOn' := by
  cases read with
  | error error => exact h
  | ok parsed =>
    obtain ⟨holds, same⟩ := h
    rw [same]
    exact then_ parsed holds

/-! ## §2 Rules -/

/-- The next token is no operator with one of these texts. -/
def Stops (signs : List String) : List Token → Prop
  | [] => True
  | t :: _ => t.isOperator signs = false

/-- The frames go on with a complete operand. -/
def runOn (limits : Limits) (length : Nat) (stack : List Frame) (e : Expr Float)
    (ts : List Token) : Except ParseError (Expr Float) :=
  parseFrom limits length (complete stack e).1 (complete stack e).2 ts

theorem runOn_of_settled (settled : Settled stack) (e : Expr Float) (ts : List Token) :
    runOn limits length stack e ts = parseFrom limits length stack (.operator e) ts := by
  rw [runOn, complete_of_settled settled]

def AgreesPrimary (limits : Limits) (length : Nat) (here : Cursor) : Prop :=
  ∀ stack, nesting stack = here.nesting → Stops sumSigns here.tokens →
    Agrees (parseFrom limits length stack .operand here.tokens) (readPrimary limits length here)
      (fun p => p.after.nesting = here.nesting)
      (fun p => runOn limits length stack p.value p.after.tokens)

def AgreesSigned (limits : Limits) (length : Nat) (here : Cursor) : Prop :=
  ∀ stack, nesting stack = here.nesting →
    Agrees (parseFrom limits length stack .operand here.tokens) (readSigned limits length here)
      (fun p => p.after.nesting = here.nesting)
      (fun p => runOn limits length stack p.value p.after.tokens)

def AgreesProductRest (limits : Limits) (length : Nat) (here : Cursor) : Prop :=
  ∀ stack bound left (shorter : here.tokens.length < bound), nesting stack = here.nesting →
    Settled stack →
    Agrees (parseFrom limits length stack (.operator left) here.tokens)
      (readProductRest limits length left here shorter)
      (fun p => p.after.nesting = here.nesting ∧ Stops productSigns p.after.tokens)
      (fun p => parseFrom limits length stack (.operator p.value) p.after.tokens)

def AgreesProduct (limits : Limits) (length : Nat) (here : Cursor) : Prop :=
  ∀ stack, nesting stack = here.nesting → Settled stack →
    Agrees (parseFrom limits length stack .operand here.tokens) (readProduct limits length here)
      (fun p => p.after.nesting = here.nesting ∧ Stops productSigns p.after.tokens)
      (fun p => parseFrom limits length stack (.operator p.value) p.after.tokens)

def AgreesSumRest (limits : Limits) (length : Nat) (here : Cursor) : Prop :=
  ∀ stack bound left (shorter : here.tokens.length < bound), nesting stack = here.nesting →
    Fresh stack → Stops productSigns here.tokens →
    Agrees (parseFrom limits length stack (.operator left) here.tokens)
      (readSumRest limits length left here shorter)
      (fun p => p.after.nesting = here.nesting ∧ Stops productSigns p.after.tokens ∧
        Stops sumSigns p.after.tokens)
      (fun p => parseFrom limits length stack (.operator p.value) p.after.tokens)

def AgreesSum (limits : Limits) (length : Nat) (here : Cursor) : Prop :=
  ∀ stack, nesting stack = here.nesting → Fresh stack →
    Agrees (parseFrom limits length stack .operand here.tokens) (readSum limits length here)
      (fun p => p.after.nesting = here.nesting ∧ Stops productSigns p.after.tokens ∧
        Stops sumSigns p.after.tokens)
      (fun p => parseFrom limits length stack (.operator p.value) p.after.tokens)

def AgreesArgumentsFrom (limits : Limits) (length : Nat) (here : Cursor) : Prop :=
  ∀ stack callee bound done (within : here.tokens.length ≤ bound),
    nesting stack + 1 = here.nesting →
    Agrees (parseFrom limits length (.call callee done :: stack) .operand here.tokens)
      (readArgumentsFrom limits length done here within)
      (fun p => p.after.nesting = here.nesting)
      (fun p => runOn limits length stack (.call callee p.value) p.after.tokens)

def AgreesArguments (limits : Limits) (length : Nat) (here : Cursor) : Prop :=
  ∀ stack callee, nesting stack + 1 = here.nesting →
    Agrees (parseFrom limits length (.call callee [] :: stack) .firstArgument here.tokens)
      (readArguments limits length here)
      (fun p => p.after.nesting = here.nesting)
      (fun p => runOn limits length stack (.call callee p.value) p.after.tokens)

/-- All rules agree where fewer than `n` tokens are left. -/
structure RulesAgree (limits : Limits) (length n : Nat) : Prop where
  signed : ∀ here : Cursor, here.tokens.length < n → AgreesSigned limits length here
  productRest : ∀ here : Cursor, here.tokens.length < n → AgreesProductRest limits length here
  product : ∀ here : Cursor, here.tokens.length < n → AgreesProduct limits length here
  sumRest : ∀ here : Cursor, here.tokens.length < n → AgreesSumRest limits length here
  sum : ∀ here : Cursor, here.tokens.length < n → AgreesSum limits length here
  argumentsFrom : ∀ here : Cursor, here.tokens.length < n → AgreesArgumentsFrom limits length here
  arguments : ∀ here : Cursor, here.tokens.length < n → AgreesArguments limits length here

/-! ## §3 Steps -/

/-- Opening a frame takes the frames where the parser goes, or fails in both. -/
theorem agrees_enter {β : Type} {bound : Nat} {frame : Frame} {mode inside : Mode} {t : Token}
    {next : Nat → Except ParseError (Parsed β bound)} {good : Parsed β bound → Prop}
    {goesOn : Parsed β bound → Except ParseError (Expr Float)} {around : Nat} {rest : List Token}
    (same : nesting stack = around) (nests : frame.nests = true)
    (opens : step limits stack mode t = openFrame limits t frame inside stack)
    (within : nesting (frame :: stack) = around + 1 →
      Agrees (parseFrom limits length (frame :: stack) inside rest) (next (around + 1)) good goesOn) :
    Agrees (parseFrom limits length stack mode (t :: rest)) (enter limits t around >>= next) good
      goesOn := by
  subst same
  rw [parseFrom, opens, openFrame, enter]
  by_cases deep : exceeds (nesting stack + 1) limits.nesting = true
  · rw [if_pos deep, if_pos deep]
    rfl
  · rw [if_neg deep, if_neg deep]
    exact within (nesting_cons_nests nests stack)

/-- An operand that no product operator follows completes the sum it belongs to. -/
theorem parseFrom_closeSum (fresh : Fresh stack) {ts : List Token} (stops : Stops productSigns ts)
    (left : Expr Float) (op : Operator) (right : Expr Float) :
    parseFrom limits length (.sum left op :: stack) (.operator right) ts =
      parseFrom limits length stack (.operator (.binary op left right)) ts := by
  have closed : closeSum stack (.binary op left right) =
      closeSum (.sum left op :: stack) right := closeSum_of_fresh fresh _
  cases ts with
  | nil => simp only [parseFrom, finish, closed]
  | cons t rest =>
    have same : step limits (.sum left op :: stack) (.operator right) t =
        step limits stack (.operator (.binary op left right)) t := by
      rw [step, step, stepOperator, stepOperator, closed]
      cases kind : t.kind with
      | operator =>
        have other : t.text ∉ productSigns := by simpa [Stops, Token.isOperator, kind] using stops
        simp [other]
      | _ => rfl
    rw [parseFrom, parseFrom, same]

/-- A token that neither goes on with an operand nor closes what is open is an error. -/
theorem parseFrom_stuck (fresh : Fresh stack) {t : Token} {rest : List Token}
    (stops : Stops productSigns (t :: rest) ∧ Stops sumSigns (t :: rest))
    (unclosed : t.kind = .rightParen → stack = [])
    (unlisted : t.kind = .comma → ∀ callee done below, stack ≠ .call callee done :: below)
    (e : Expr Float) :
    parseFrom limits length stack (.operator e) (t :: rest) = .error (.unexpected t) := by
  have stuck : step limits stack (.operator e) t = .error (.unexpected t) := by
    rw [step, stepOperator]
    cases kind : t.kind with
    | operator =>
      have other : t.text ∉ productSigns ∧ t.text ∉ sumSigns := by
        simpa [Stops, Token.isOperator, kind] using stops
      simp [other]
    | rightParen =>
      rw [unclosed kind]
      rfl
    | comma =>
      simp only [closeSum_of_fresh fresh]
      split
      · next called => exact absurd (Prod.mk.inj called).1 (unlisted kind _ _ _)
      · rfl
    | _ => rfl
  rw [parseFrom, stuck]

/-! ## §4 Descent -/

section Primary

variable {t : Token} {rest : List Token} {around : Nat}

theorem agreesNumber (kind : t.kind = .number) :
    AgreesPrimary limits length ⟨t :: rest, around⟩ := by
  intro stack same stops
  rw [readPrimary.eq_def]
  simp only [kind]
  cases value : Decimal.readFloat? t.text with
  | none =>
    have bad : step limits stack .operand t = .error (.badNumeral t.text) := by
      simp only [step, stepOperand, kind, value]
    simp only [parseFrom, bad]
    rfl
  | some x =>
    have taken : step limits stack .operand t = .ok (complete stack (.number x)) := by
      simp only [step, stepOperand, kind, value]
    exact ⟨rfl, parseFrom_cons taken rest⟩

/-- A name is a call where a parenthesis follows it, and a reference elsewhere. -/
theorem agreesName (kind : t.kind = .identifier) (ih : RulesAgree limits length (rest.length + 1)) :
    AgreesPrimary limits length ⟨t :: rest, around⟩ := by
  intro stack same stops
  have named : step limits stack .operand t = .ok (stack, .named t.text) := by
    rw [step, stepOperand, kind]
  rw [readPrimary.eq_def]
  simp only [kind]
  rw [parseFrom_cons named]
  cases rest with
  | nil =>
    have ends : CanFollow [] := trivial
    exact ⟨rfl, parseFrom_named ends t.text⟩
  | cons opening rest =>
    dsimp only
    split
    · next call =>
      have opens : step limits stack (.named t.text) opening =
          openFrame limits opening (.call t.text []) .firstArgument stack := by
        rw [step, if_pos call]
      have shorter : rest.length < (opening :: rest).length + 1 := by
        simp only [List.length_cons]
        omega
      refine agrees_enter same rfl opens fun inside => ?_
      refine (ih.arguments ⟨rest, around + 1⟩ shorter stack t.text (by rw [same])).bind
        fun arguments balanced => ?_
      exact ⟨by simp [Cursor.leave, balanced], rfl⟩
    · next reference =>
      have follows : CanFollow (opening :: rest) := reference
      exact ⟨rfl, parseFrom_named follows t.text⟩

theorem agreesGroup (kind : t.kind = .leftParen) (ih : RulesAgree limits length (rest.length + 1)) :
    AgreesPrimary limits length ⟨t :: rest, around⟩ := by
  intro stack same stops
  have opens : step limits stack .operand t = openFrame limits t .group .operand stack := by
    rw [step, stepOperand, kind]
  have fresh : Fresh (.group :: stack) := trivial
  rw [readPrimary.eq_def]
  simp only [kind]
  refine agrees_enter same rfl opens fun inside => ?_
  refine (ih.sum ⟨rest, around + 1⟩ (Nat.lt_succ_self _) (.group :: stack) inside fresh).bind
    fun sum good => ?_
  obtain ⟨value, ⟨behind, inner⟩, shorter⟩ := sum
  obtain ⟨balanced, stops⟩ := good
  obtain rfl : inner = around + 1 := balanced
  cases behind with
  | nil => rfl
  | cons closing behind =>
    dsimp only
    split
    · next closes => exact ⟨rfl, parseFrom_cons (step_closing_group closes rfl) behind⟩
    · next unclosed =>
      exact parseFrom_stuck fresh stops (fun closes => absurd closes unclosed)
        (fun _ _ _ _ same => by cases same) value

/-- Any other token cannot start an operand. -/
theorem agreesStuck (kind : t.kind = .operator ∨ t.kind = .rightParen ∨ t.kind = .comma) :
    AgreesPrimary limits length ⟨t :: rest, around⟩ := by
  intro stack same stops
  have stuck : step limits stack .operand t = .error (.unexpected t) := by
    rcases kind with kind | kind | kind
    · have other : t.text ∉ sumSigns := by simpa [Stops, Token.isOperator, kind] using stops
      simp [step, stepOperand, kind, other]
    · rw [step, stepOperand, kind]
    · rw [step, stepOperand, kind]
  have fails : readPrimary limits length ⟨t :: rest, around⟩ = .error (.unexpected t) := by
    rw [readPrimary.eq_def]
    rcases kind with kind | kind | kind <;> simp only [kind] <;> rfl
  rw [fails, parseFrom, stuck]
  rfl

end Primary

theorem agreesPrimary (ih : RulesAgree limits length here.tokens.length) :
    AgreesPrimary limits length here := by
  obtain ⟨tokens, around⟩ := here
  cases tokens with
  | nil =>
    intro stack same stops
    rw [readPrimary.eq_def]
    rfl
  | cons t rest =>
    cases kind : t.kind with
    | number => exact agreesNumber kind
    | identifier => exact agreesName kind ih
    | leftParen => exact agreesGroup kind ih
    | operator => exact agreesStuck (.inl kind)
    | rightParen => exact agreesStuck (.inr (.inl kind))
    | comma => exact agreesStuck (.inr (.inr kind))

theorem agreesSigned (ih : RulesAgree limits length here.tokens.length) :
    AgreesSigned limits length here := by
  intro stack same
  have primary := agreesPrimary ih stack same
  obtain ⟨tokens, around⟩ := here
  cases tokens with
  | nil =>
    rw [readSigned]
    exact primary trivial
  | cons t rest =>
    rw [readSigned]
    split
    · next sign =>
      have opens : step limits stack .operand t =
          openFrame limits t (.sign (.ofSign t.text)) .operand stack := by
        obtain ⟨kind, text⟩ : t.kind = .operator ∧ sumSigns.contains t.text = true := by
          simpa [Token.isOperator] using sign
        simp only [step, stepOperand, kind, text, if_true]
      refine agrees_enter same rfl opens fun inside => ?_
      refine (ih.signed ⟨rest, around + 1⟩ (by simp) _ inside).bind fun operand balanced => ?_
      exact ⟨by simp [Cursor.leave, balanced], rfl⟩
    · next other => exact primary (by simpa [Stops] using other)

theorem agreesProductRest (ih : RulesAgree limits length here.tokens.length) :
    AgreesProductRest limits length here := by
  intro stack bound left shorter same settled
  obtain ⟨tokens, around⟩ := here
  cases tokens with
  | nil =>
    rw [readProductRest]
    exact ⟨⟨rfl, trivial⟩, rfl⟩
  | cons t rest =>
    rw [readProductRest]
    split
    · next product =>
      have taken : step limits stack (.operator left) t =
          .ok (.product left (.ofSign t.text) :: stack, .operand) := by
        obtain ⟨kind, text⟩ : t.kind = .operator ∧ productSigns.contains t.text = true := by
          simpa [Token.isOperator] using product
        simp only [step, stepOperator, kind, text, if_true]
      rw [parseFrom_cons taken]
      refine (ih.signed ⟨rest, around⟩ (by simp) (.product left (.ofSign t.text) :: stack)
        same).bind fun right balanced => ?_
      have shorter' : right.after.tokens.length < rest.length + 1 :=
        Nat.lt_succ_of_lt right.shorter
      have going := ih.productRest right.after shorter' stack bound
        (.binary (.ofSign t.text) left right.value)
        (Nat.lt_trans right.shorter (Nat.lt_of_succ_lt shorter)) (same.trans balanced.symm) settled
      rw [balanced] at going
      rw [← runOn_of_settled settled] at going
      exact going
    · next other => exact ⟨⟨rfl, by simpa [Stops] using other⟩, rfl⟩

theorem agreesProduct (ih : RulesAgree limits length here.tokens.length) :
    AgreesProduct limits length here := by
  intro stack same settled
  rw [readProduct]
  refine (agreesSigned ih stack same).bind fun first balanced => ?_
  have going := ih.productRest first.after first.shorter stack _ first.value first.shorter
    (same.trans balanced.symm) settled
  rw [balanced] at going
  rw [runOn_of_settled settled]
  exact going

theorem agreesSumRest (ih : RulesAgree limits length here.tokens.length) :
    AgreesSumRest limits length here := by
  intro stack bound left shorter same fresh stops
  obtain ⟨tokens, around⟩ := here
  cases tokens with
  | nil =>
    rw [readSumRest]
    exact ⟨⟨rfl, trivial, trivial⟩, rfl⟩
  | cons t rest =>
    rw [readSumRest]
    split
    · next sum =>
      have taken : step limits stack (.operator left) t =
          .ok (.sum left (.ofSign t.text) :: stack, .operand) := by
        obtain ⟨kind, text⟩ : t.kind = .operator ∧ sumSigns.contains t.text = true := by
          simpa [Token.isOperator] using sum
        have other : t.text ∉ productSigns := by simpa [Stops, Token.isOperator, kind] using stops
        have other : productSigns.contains t.text = false := by simpa using other
        simp only [step, stepOperator, kind, other, text, closeSum_of_fresh fresh, if_true,
          Bool.false_eq_true, if_false]
      have settled : Settled (.sum left (.ofSign t.text) :: stack) := trivial
      rw [parseFrom_cons taken]
      refine (ih.product ⟨rest, around⟩ (by simp) (.sum left (.ofSign t.text) :: stack) same
        settled).bind fun right good => ?_
      obtain ⟨balanced, stops⟩ := good
      have going := ih.sumRest right.after (Nat.lt_succ_of_lt right.shorter) stack bound
        (.binary (.ofSign t.text) left right.value)
        (Nat.lt_trans right.shorter (Nat.lt_of_succ_lt shorter)) (same.trans balanced.symm) fresh
        stops
      rw [balanced] at going
      rw [parseFrom_closeSum fresh stops]
      exact going
    · next other => exact ⟨⟨rfl, stops, by simpa [Stops] using other⟩, rfl⟩

theorem agreesSum (ih : RulesAgree limits length here.tokens.length) :
    AgreesSum limits length here := by
  intro stack same fresh
  rw [readSum]
  refine (agreesProduct ih stack same fresh.settled).bind fun first good => ?_
  obtain ⟨balanced, stops⟩ := good
  have going := ih.sumRest first.after first.shorter stack _ first.value first.shorter
    (same.trans balanced.symm) fresh stops
  rw [balanced] at going
  exact going

theorem agreesArgumentsFrom (ih : RulesAgree limits length here.tokens.length) :
    AgreesArgumentsFrom limits length here := by
  intro stack callee bound done within same
  have fresh : Fresh (.call callee done :: stack) := trivial
  have inside : nesting (.call callee done :: stack) = here.nesting := by
    rw [nesting_cons_nests rfl, same]
  rw [readArgumentsFrom]
  refine (agreesSum ih _ inside fresh).bind fun argument good => ?_
  obtain ⟨value, ⟨behind, inner⟩, shorter⟩ := argument
  obtain ⟨balanced, stops⟩ := good
  obtain rfl : inner = here.nesting := balanced
  cases behind with
  | nil => rfl
  | cons t behind =>
    dsimp only
    split
    · next comma =>
      have fewer : behind.length < here.tokens.length := Nat.lt_of_succ_lt shorter
      rw [parseFrom_cons (step_comma comma rfl)]
      exact ih.argumentsFrom ⟨behind, here.nesting⟩ fewer stack callee bound (done ++ [value])
        (Nat.le_trans (Nat.le_of_lt fewer) within) same
    · next unlisted =>
      split
      · next closes =>
        exact ⟨rfl, parseFrom_cons (step_closing_call closes rfl) behind⟩
      · next unclosed =>
        exact parseFrom_stuck fresh stops (fun closes => absurd closes unclosed)
          (fun comma => absurd comma unlisted) value

theorem agreesArguments (ih : RulesAgree limits length here.tokens.length) :
    AgreesArguments limits length here := by
  intro stack callee same
  have going := agreesArgumentsFrom ih stack callee here.tokens.length [] (Nat.le_refl _) same
  obtain ⟨tokens, around⟩ := here
  cases tokens with
  | nil =>
    rw [readArguments]
    exact going
  | cons t rest =>
    rw [readArguments]
    split
    · next closes =>
      have taken : step limits (.call callee [] :: stack) .firstArgument t =
          .ok (complete stack (.call callee [])) := by
        simp only [step, closes]
      exact ⟨rfl, parseFrom_cons taken rest⟩
    · next other =>
      have starts : StartsInside (t :: rest) := ⟨t, rest, rfl, other⟩
      rw [parseFrom_firstArgument starts]
      exact going

theorem RulesAgree.mono {m n : Nat} (h : RulesAgree limits length n) (le : m ≤ n) :
    RulesAgree limits length m where
  signed here inside := h.signed here (Nat.lt_of_lt_of_le inside le)
  productRest here inside := h.productRest here (Nat.lt_of_lt_of_le inside le)
  product here inside := h.product here (Nat.lt_of_lt_of_le inside le)
  sumRest here inside := h.sumRest here (Nat.lt_of_lt_of_le inside le)
  sum here inside := h.sum here (Nat.lt_of_lt_of_le inside le)
  argumentsFrom here inside := h.argumentsFrom here (Nat.lt_of_lt_of_le inside le)
  arguments here inside := h.arguments here (Nat.lt_of_lt_of_le inside le)

/-- **Every rule of the parser agrees with the stack of frames.** -/
theorem rulesAgree (limits : Limits) (length n : Nat) : RulesAgree limits length n := by
  induction n with
  | zero => constructor <;> exact fun here none => absurd none (Nat.not_lt_zero _)
  | succ n ih =>
    have below {here : Cursor} (inside : here.tokens.length < n + 1) :
        RulesAgree limits length here.tokens.length :=
      ih.mono (Nat.le_of_lt_succ inside)
    exact {
      signed := fun here inside => agreesSigned (below inside)
      productRest := fun here inside => agreesProductRest (below inside)
      product := fun here inside => agreesProduct (below inside)
      sumRest := fun here inside => agreesSumRest (below inside)
      sum := fun here inside => agreesSum (below inside)
      argumentsFrom := fun here inside => agreesArgumentsFrom (below inside)
      arguments := fun here inside => agreesArguments (below inside) }

/-- **The parser reads what the stack of frames reads**, and fails where it fails. -/
theorem parse_eq_parseFrom (limits : Limits) (length : Nat) (ts : List Token) :
    parse limits length ts =
      match parseFrom limits length [] .operand ts with
      | .error error => .error error
      | .ok e =>
        if exceeds (e.depth.getD 0) limits.depth then .error (.tooDeep limits.depth) else .ok e := by
  have fresh : Fresh [] := trivial
  have start : AgreesSum limits length ⟨ts, 0⟩ := agreesSum (rulesAgree limits length ts.length)
  have agrees := start [] rfl fresh
  rw [parse]
  cases whole : readSum limits length ⟨ts, 0⟩ with
  | error error =>
    rw [whole] at agrees
    rw [show parseFrom limits length [] .operand ts = .error error from agrees]
    rfl
  | ok parsed =>
    rw [whole] at agrees
    obtain ⟨⟨-, stops⟩, run⟩ := agrees
    obtain ⟨value, ⟨behind, nesting⟩, shorter⟩ := parsed
    rw [show parseFrom limits length [] .operand ts = _ from run]
    cases behind with
    | nil => rfl
    | cons t behind =>
      have stuck : parseFrom limits length [] (.operator value) (t :: behind) =
          .error (.unexpected t) :=
        parseFrom_stuck fresh stops (fun _ => rfl) (fun _ _ _ _ same => by cases same) value
      dsimp only
      rw [stuck]
      rfl

end BusinessCase.Formula
