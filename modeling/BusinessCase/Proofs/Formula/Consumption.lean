/-
BusinessCase.Proofs.Formula.Consumption — what the parser has read is the
beginning of a derivation.

`Opens` says which tokens a stack of open frames stands for, and `Reads` which
tokens the parser has behind it in a given mode. Every step keeps that, so a
tree at the end has a derivation of all tokens.

  §1 Invariant — `Opens`, `Reads`.
  §2 Closing   — what an operand completes is a phrase again.
  §3 Steps     — `Reads.step`, one token; `Reads.derives`, all of them.
-/
import BusinessCase.Proofs.Formula.Acceptance
import BusinessCase.Proofs.Formula.Tokens

namespace BusinessCase.Formula

variable {limits : Limits} {stack : List Frame} {read : List Token} {t : Token}

/-! ## §1 Invariant -/

/-- The tokens that open frames stand for, the innermost frame first. What is complete inside a
frame has a derivation that the nesting limit allows. -/
inductive Opens (limits : Limits) : List Frame → List Token → Prop where
  | nothing : Opens limits [] []
  | sum {stack : List Frame} {read ts : List Token} {t : Token} {left : Expr Float} {n : Nat}
      (below : Opens limits stack read) (fresh : Fresh stack) (derived : Derives .sum ts left n)
      (room : limits.Allows (nesting stack) n) (isSign : t.IsSumSign) :
      Opens limits (.sum left (.ofSign t.text) :: stack) (read ++ (ts ++ [t]))
  | product {stack : List Frame} {read ts : List Token} {t : Token} {left : Expr Float} {n : Nat}
      (below : Opens limits stack read) (settled : Settled stack)
      (derived : Derives .product ts left n) (room : limits.Allows (nesting stack) n)
      (isSign : t.IsProductSign) :
      Opens limits (.product left (.ofSign t.text) :: stack) (read ++ (ts ++ [t]))
  | sign {stack : List Frame} {read : List Token} {t : Token} (below : Opens limits stack read)
      (isSign : t.IsSumSign) (room : exceeds (nesting stack + 1) limits.nesting = false) :
      Opens limits (.sign (.ofSign t.text) :: stack) (read ++ [t])
  | group {stack : List Frame} {read : List Token} {opening : Token}
      (below : Opens limits stack read) (opens : opening.kind = .leftParen)
      (room : exceeds (nesting stack + 1) limits.nesting = false) :
      Opens limits (.group :: stack) (read ++ [opening])
  | call {stack : List Frame} {read : List Token} {name opening : Token}
      (below : Opens limits stack read) (isName : name.kind = .identifier)
      (opens : opening.kind = .leftParen)
      (room : exceeds (nesting stack + 1) limits.nesting = false) :
      Opens limits (.call name.text [] :: stack) (read ++ [name, opening])
  | arguments {stack : List Frame} {read ts : List Token} {name opening comma : Token}
      {done : List (Expr Float)} {n : Nat} (below : Opens limits stack read)
      (isName : name.kind = .identifier) (opens : opening.kind = .leftParen)
      (room : exceeds (nesting stack + 1) limits.nesting = false)
      (derived : DerivesAll ts done n) (inside : limits.Allows (nesting stack + 1) n)
      (separates : comma.kind = .comma) :
      Opens limits (.call name.text done :: stack) (read ++ (name :: opening :: (ts ++ [comma])))

/-- The tokens that the parser has read when it is in a mode above open frames. -/
inductive Reads (limits : Limits) : List Frame → Mode → List Token → Prop where
  | operand {stack : List Frame} {read : List Token} (below : Opens limits stack read) :
      Reads limits stack .operand read
  | firstArgument {stack : List Frame} {read : List Token} {name opening : Token}
      (below : Opens limits stack read) (isName : name.kind = .identifier)
      (opens : opening.kind = .leftParen)
      (room : exceeds (nesting stack + 1) limits.nesting = false) :
      Reads limits (.call name.text [] :: stack) .firstArgument (read ++ [name, opening])
  | named {stack : List Frame} {read : List Token} {name : Token}
      (below : Opens limits stack read) (isName : name.kind = .identifier) :
      Reads limits stack (.named name.text) (read ++ [name])
  | operator {stack : List Frame} {read ts : List Token} {e : Expr Float} {n : Nat}
      (below : Opens limits stack read) (settled : Settled stack)
      (derived : Derives .product ts e n) (room : limits.Allows (nesting stack) n) :
      Reads limits stack (.operator e) (read ++ ts)

/-- Nothing has been read, and nothing is open. -/
theorem Reads.start (limits : Limits) : Reads limits [] .operand [] := .operand .nothing

/-! ## §2 Closing -/

/-- An operand completes the signs and the product that are open, and is a product then. -/
theorem Opens.complete (opens : Opens limits stack read) {ts : List Token} {e : Expr Float}
    {n : Nat} (derived : Derives .signed ts e n) (room : limits.Allows (nesting stack) n) :
    Reads limits (Formula.complete stack e).1 (Formula.complete stack e).2 (read ++ ts) := by
  induction opens generalizing ts e n with
  | nothing => exact .operator .nothing trivial (.signed derived) room
  | sum below fresh left leftRoom isSign =>
    exact .operator (.sum below fresh left leftRoom isSign) trivial (.signed derived) room
  | product below settled left leftRoom isSign =>
    rw [complete_product, complete_of_settled settled]
    have whole := Reads.operator below settled (.times left isSign derived)
      (Limits.allows_max.mpr ⟨leftRoom, room⟩)
    simpa using whole
  | sign below isSign first ih =>
    rw [complete_sign]
    rw [nesting_cons_nests rfl] at room
    have whole := ih (.sign isSign derived) (Limits.allows_succ.mpr ⟨first, room⟩)
    simpa using whole
  | group below opening first =>
    exact .operator (.group below opening first) trivial (.signed derived) room
  | call below isName opening first =>
    exact .operator (.call below isName opening first) trivial (.signed derived) room
  | arguments below isName opening first done inside separates =>
    exact .operator (.arguments below isName opening first done inside separates) trivial
      (.signed derived) room

/-- A product completes the sum that is open, and is a sum then. -/
theorem Opens.closeSum (opens : Opens limits stack read) (settled : Settled stack)
    {ts : List Token} {e : Expr Float} {n : Nat} (derived : Derives .product ts e n)
    (room : limits.Allows (nesting stack) n) :
    ∃ before us m, read ++ ts = before ++ us ∧ Opens limits (Formula.closeSum stack e).1 before ∧
      Fresh (Formula.closeSum stack e).1 ∧ Derives .sum us (Formula.closeSum stack e).2 m ∧
      limits.Allows (nesting (Formula.closeSum stack e).1) m := by
  cases opens with
  | nothing => exact ⟨[], ts, n, rfl, .nothing, trivial, .product derived, room⟩
  | @sum below read us t left m opens fresh leftDerived leftRoom isSign =>
    exact ⟨read, us ++ t :: ts, max m n, by simp, opens, fresh, .plus leftDerived isSign derived,
      Limits.allows_max.mpr ⟨leftRoom, room⟩⟩
  | product => exact settled.elim
  | sign => exact settled.elim
  | group below opening first =>
    exact ⟨_, ts, n, rfl, .group below opening first, trivial, .product derived, room⟩
  | call below isName opening first =>
    exact ⟨_, ts, n, rfl, .call below isName opening first, trivial, .product derived, room⟩
  | arguments below isName opening first done inside separates =>
    exact ⟨_, ts, n, rfl, .arguments below isName opening first done inside separates, trivial,
      .product derived, room⟩

/-- An argument is one more for the call that is open. -/
theorem Opens.addArgument {callee : String} {done : List (Expr Float)}
    (opens : Opens limits (.call callee done :: stack) read) {ts : List Token} {e : Expr Float}
    {n : Nat} (derived : Derives .sum ts e n) (room : limits.Allows (nesting stack + 1) n) :
    ∃ before name opening us m, read ++ ts = before ++ (name :: opening :: us) ∧
      Opens limits stack before ∧ callee = name.text ∧ name.kind = .identifier ∧
      opening.kind = .leftParen ∧ exceeds (nesting stack + 1) limits.nesting = false ∧
      DerivesAll us (done ++ [e]) m ∧ limits.Allows (nesting stack + 1) m := by
  cases opens with
  | @call _ before name opening below isName opening_kind first =>
    exact ⟨before, name, opening, ts, n, by simp, below, rfl, isName, opening_kind, first,
      .one derived, room⟩
  | @arguments _ before us name opening comma _ m below isName opening_kind first front inside
      separates =>
    exact ⟨before, name, opening, us ++ comma :: ts, max m n, by simp, below, rfl, isName,
      opening_kind, first, .more front separates derived, Limits.allows_max.mpr ⟨inside, room⟩⟩

/-- A closing parenthesis completes a group. -/
theorem Opens.closeGroup (opens : Opens limits (.group :: stack) read) {ts : List Token}
    {e : Expr Float} {n : Nat} (derived : Derives .sum ts e n)
    (room : limits.Allows (nesting (.group :: stack)) n) (closes : t.kind = .rightParen) :
    Reads limits (Formula.complete stack e).1 (Formula.complete stack e).2 (read ++ ts ++ [t]) := by
  cases opens with
  | @group _ before opening below opening_kind first =>
    rw [nesting_cons_nests rfl] at room
    have whole := below.complete (.primary (.group opening_kind derived closes))
      (Limits.allows_succ.mpr ⟨first, room⟩)
    simpa using whole

/-- A closing parenthesis completes a call behind its last argument. -/
theorem Opens.closeCall {callee : String} {done : List (Expr Float)}
    (opens : Opens limits (.call callee done :: stack) read) {ts : List Token} {e : Expr Float}
    {n : Nat} (derived : Derives .sum ts e n)
    (room : limits.Allows (nesting (.call callee done :: stack)) n)
    (closes : t.kind = .rightParen) :
    Reads limits (Formula.complete stack (.call callee (done ++ [e]))).1
      (Formula.complete stack (.call callee (done ++ [e]))).2 (read ++ ts ++ [t]) := by
  rw [nesting_cons_nests rfl] at room
  obtain ⟨before, name, opening, us, m, same, below, rfl, isName, opening_kind, first, arguments,
    inside⟩ := opens.addArgument derived room
  have whole := below.complete (.primary (.call isName opening_kind arguments closes))
    (Limits.allows_succ.mpr ⟨first, inside⟩)
  rw [same]
  simpa using whole

/-- A comma goes on to the next argument. -/
theorem Opens.nextArgument {callee : String} {done : List (Expr Float)}
    (opens : Opens limits (.call callee done :: stack) read) {ts : List Token} {e : Expr Float}
    {n : Nat} (derived : Derives .sum ts e n)
    (room : limits.Allows (nesting (.call callee done :: stack)) n) (separates : t.kind = .comma) :
    Opens limits (.call callee (done ++ [e]) :: stack) (read ++ ts ++ [t]) := by
  rw [nesting_cons_nests rfl] at room
  obtain ⟨before, name, opening, us, m, same, below, rfl, isName, opening_kind, first, arguments,
    inside⟩ := opens.addArgument derived room
  have whole := Opens.arguments below isName opening_kind first arguments inside separates
  rw [same]
  simpa using whole

/-! ## §3 Steps -/

theorem openFrame_eq_ok {frame : Frame} {mode mode' : Mode} {stack' : List Frame}
    (h : openFrame limits t frame mode stack = .ok (stack', mode')) :
    exceeds (nesting stack + 1) limits.nesting = false ∧ stack' = frame :: stack ∧
      mode' = mode := by
  unfold openFrame at h
  split at h
  · cases h
  · next room =>
    cases h
    exact ⟨by simpa using room, rfl, rfl⟩

theorem Token.Emitted.isSumSign (h : t.Emitted) (kind : t.kind = .operator)
    (sign : sumSigns.contains t.text = true) : t.IsSumSign := by
  refine ⟨kind, ?_⟩
  rcases h.operator_text kind with text | text | text | text
  · exact .inl text
  · exact .inr text
  · rw [text] at sign
    exact absurd sign (by decide)
  · rw [text] at sign
    exact absurd sign (by decide)

theorem Token.Emitted.isProductSign (h : t.Emitted) (kind : t.kind = .operator)
    (sign : productSigns.contains t.text = true) : t.IsProductSign := by
  refine ⟨kind, ?_⟩
  rcases h.operator_text kind with text | text | text | text
  · rw [text] at sign
    exact absurd sign (by decide)
  · rw [text] at sign
    exact absurd sign (by decide)
  · exact .inl text
  · exact .inr text

/-- A token where an operand has to start. -/
theorem Opens.stepOperand (opens : Opens limits stack read) (emitted : t.Emitted)
    {stack' : List Frame} {mode : Mode}
    (h : Formula.stepOperand limits stack t = .ok (stack', mode)) :
    Reads limits stack' mode (read ++ [t]) := by
  unfold Formula.stepOperand at h
  cases kind : t.kind with
  | number =>
    rw [kind] at h
    cases value : Decimal.readFloat? t.text with
    | none => simp [value] at h
    | some x =>
      simp only [value, Except.ok.injEq] at h
      have whole := opens.complete (.primary (.number kind value)) (Limits.allows_zero _)
      rwa [h] at whole
  | identifier =>
    rw [kind] at h
    cases h
    exact .named opens kind
  | leftParen =>
    rw [kind] at h
    obtain ⟨room, rfl, rfl⟩ := openFrame_eq_ok h
    exact .operand (.group opens kind room)
  | operator =>
    simp only [kind] at h
    split at h
    · next sign =>
      obtain ⟨room, rfl, rfl⟩ := openFrame_eq_ok h
      exact .operand (.sign opens (emitted.isSumSign kind sign) room)
    · cases h
  | rightParen => simp [kind] at h
  | comma => simp [kind] at h

/-- A token after a product. -/
theorem Opens.stepOperator (opens : Opens limits stack read) (settled : Settled stack)
    {ts : List Token} {e : Expr Float} {n : Nat} (derived : Derives .product ts e n)
    (room : limits.Allows (nesting stack) n) (emitted : t.Emitted) {stack' : List Frame}
    {mode : Mode} (h : Formula.stepOperator stack e t = .ok (stack', mode)) :
    Reads limits stack' mode (read ++ ts ++ [t]) := by
  obtain ⟨before, us, m, whole, below, fresh, sum, sumRoom⟩ :=
    opens.closeSum settled derived room
  unfold Formula.stepOperator at h
  cases kind : t.kind with
  | operator =>
    simp only [kind] at h
    split at h
    · next sign =>
      cases h
      rw [List.append_assoc]
      exact .operand (.product opens settled derived room (emitted.isProductSign kind sign))
    · split at h
      · next sign =>
        cases h
        rw [whole, List.append_assoc]
        exact .operand (.sum below fresh sum sumRoom (emitted.isSumSign kind sign))
      · cases h
  | rightParen =>
    simp only [kind] at h
    rw [whole]
    split at h
    · next outer inner closed =>
      rw [closed] at below sum sumRoom
      have read' := below.closeGroup sum sumRoom kind
      simp only [Except.ok.injEq] at h
      rwa [h] at read'
    · next outer callee done inner closed =>
      rw [closed] at below sum sumRoom
      have read' := below.closeCall sum sumRoom kind
      simp only [Except.ok.injEq] at h
      rwa [h] at read'
    · cases h
  | comma =>
    simp only [kind] at h
    rw [whole]
    split at h
    · next outer callee done inner closed =>
      rw [closed] at below sum sumRoom
      cases h
      exact .operand (below.nextArgument sum sumRoom kind)
    · cases h
  | number => simp [kind] at h
  | identifier => simp [kind] at h
  | leftParen => simp [kind] at h

/-- A token after an operand, whatever stands on the stack: the operand is a product already. -/
theorem Reads.stepOperator {ts : List Token} {operand : Expr Float}
    (reads : Reads limits stack (.operator operand) ts) (emitted : t.Emitted)
    {stack' : List Frame} {mode : Mode}
    (h : Formula.stepOperator stack operand t = .ok (stack', mode)) :
    Reads limits stack' mode (ts ++ [t]) := by
  cases reads with
  | operator below settled derived room => exact below.stepOperator settled derived room emitted h

/-- **A step of the parser keeps the beginning of a derivation**, one token longer. -/
theorem Reads.step {mode mode' : Mode} {stack' : List Frame}
    (reads : Reads limits stack mode read) (emitted : t.Emitted)
    (h : Formula.step limits stack mode t = .ok (stack', mode')) :
    Reads limits stack' mode' (read ++ [t]) := by
  cases reads with
  | operand below => exact below.stepOperand emitted h
  | @firstArgument stack before name opening below isName opens room =>
    by_cases closes : t.kind = .rightParen
    · simp only [Formula.step, closes, Except.ok.injEq] at h
      have whole := below.complete (.primary (.emptyCall isName opens closes))
        (Limits.allows_succ.mpr ⟨room, Limits.allows_zero _⟩)
      rw [h] at whole
      simpa using whole
    · rw [step_firstArgument closes] at h
      exact (Opens.call below isName opens room).stepOperand emitted h
  | @named _ before name below isName =>
    by_cases opens : t.kind = .leftParen
    · rw [Formula.step, if_pos opens] at h
      obtain ⟨room, rfl, rfl⟩ := openFrame_eq_ok h
      have whole := Reads.firstArgument below isName opens room
      simpa using whole
    · rw [Formula.step, if_neg opens] at h
      have reference := below.complete (.primary (.reference isName)) (Limits.allows_zero _)
      exact reference.stepOperator emitted h
  | operator below settled derived room =>
    exact Opens.stepOperator below settled derived room emitted h

/-- The parser ends after a product only where all it has read is a sum. -/
theorem Reads.finishProduct {operand e : Expr Float}
    (reads : Reads limits stack (.operator operand) read)
    (h : Formula.closeSum stack operand = ([], e)) :
    ∃ n, Derives .sum read e n ∧ limits.Allows 0 n := by
  cases reads with
  | operator below settled derived room =>
    obtain ⟨before, us, n, whole, outside, -, sum, sumRoom⟩ := below.closeSum settled derived room
    rw [h] at outside sum sumRoom
    cases outside
    exact ⟨n, whole ▸ sum, sumRoom⟩

/-- The parser ends with a tree only where all it has read is a sum. -/
theorem Reads.finish {mode : Mode} {length : Nat} {e : Expr Float}
    (reads : Reads limits stack mode read) (h : Formula.finish length stack mode = .ok e) :
    ∃ n, Derives .sum read e n ∧ limits.Allows 0 n := by
  cases reads with
  | operand => cases h
  | firstArgument => cases h
  | @named _ before name below isName =>
    have reference := below.complete (.primary (.reference isName)) (Limits.allows_zero _)
    refine reference.finishProduct ?_
    simp only [Formula.finish] at h
    split at h
    · next tree closed =>
      cases h
      exact closed
    · cases h
  | operator below settled derived room =>
    refine (Reads.operator below settled derived room).finishProduct ?_
    simp only [Formula.finish] at h
    split at h
    · next tree closed =>
      cases h
      exact closed
    · cases h

/-- **A tree that the parser gives has a derivation** of what was read and what was left. -/
theorem Reads.derives {length : Nat} {e : Expr Float} {ts : List Token} {mode : Mode}
    (reads : Reads limits stack mode read) (emitted : ∀ t ∈ ts, t.Emitted)
    (h : parseFrom limits length stack mode ts = .ok e) :
    ∃ n, Derives .sum (read ++ ts) e n ∧ limits.Allows 0 n := by
  induction ts generalizing stack mode read with
  | nil =>
    rw [List.append_nil]
    exact reads.finish h
  | cons t rest ih =>
    rw [parseFrom] at h
    split at h
    · next stack' mode' stepped =>
      have next := ih (reads.step (emitted t List.mem_cons_self) stepped)
        (fun u member => emitted u (List.mem_cons_of_mem t member)) h
      simpa using next
    · cases h

end BusinessCase.Formula
