/-
BusinessCase.Proofs.Formula.Acceptance — the parser takes what the grammar
derives.

A derivation says which frames the parser opens and closes while it reads the
tokens, so the induction is on the derivation, for any open frames below and
any tokens behind. What is behind must not start with an opening parenthesis:
that would make a call of a name at the end.

  §1 Room    — `Limits.Allows`, the nesting limit for a phrase.
  §2 Phrases — `Derives.accepted`.
-/
import BusinessCase.Proofs.Formula.Frames

namespace BusinessCase.Formula

variable {limits : Limits} {length : Nat} {stack : List Frame} {e : Expr Float}

/-! ## §1 Room -/

/-- With `open` openings around it, a phrase may open `n` more. -/
def Limits.Allows (limits : Limits) (around n : Nat) : Prop :=
  ∀ count, around < count → count ≤ around + n → exceeds count limits.nesting = false

theorem Limits.allows_zero (around : Nat) : limits.Allows around 0 := by
  intro count above below
  omega

theorem Limits.allows_max {around m n : Nat} :
    limits.Allows around (max m n) ↔ limits.Allows around m ∧ limits.Allows around n := by
  constructor
  · intro h
    exact ⟨fun count above below => h count above (by omega),
      fun count above below => h count above (by omega)⟩
  · rintro ⟨left, right⟩ count above below
    rcases Nat.le_total m n with le | le
    · exact right count above (by omega)
    · exact left count above (by omega)

theorem Limits.allows_succ {around n : Nat} :
    limits.Allows around (n + 1) ↔
      exceeds (around + 1) limits.nesting = false ∧ limits.Allows (around + 1) n := by
  constructor
  · intro h
    exact ⟨h _ (by omega) (by omega), fun count above below => h count (by omega) (by omega)⟩
  · rintro ⟨first, others⟩ count above below
    rcases Nat.eq_or_lt_of_le above with same | above
    · exact same ▸ first
    · exact others count above (by omega)

/-- The room left inside an opening. -/
theorem allows_inside {frame : Frame} {n : Nat} (nests : frame.nests = true)
    (h : limits.Allows (nesting stack + 1) n) : limits.Allows (nesting (frame :: stack)) n := by
  rwa [nesting_cons_nests nests]

/-! ## §2 Phrases -/

/-- The parser has read the tokens `ts` of a phrase when only the tokens behind are left. A sum is
left open at its last operator, which `closeSum` closes. -/
def Accepts (limits : Limits) (length : Nat) (stack : List Frame) (ts : List Token)
    (e : Expr Float) (rest : List Token) : Phrase → Prop
  | .primary | .signed =>
    parseFrom limits length stack .operand (ts ++ rest) =
      parseFrom limits length (complete stack e).1 (complete stack e).2 rest
  | .product =>
    Settled stack →
      parseFrom limits length stack .operand (ts ++ rest) =
        parseFrom limits length stack (.operator e) rest
  | .sum =>
    Fresh stack → ∃ above last, closeSum above last = (stack, e) ∧ Settled above ∧
      parseFrom limits length stack .operand (ts ++ rest) =
        parseFrom limits length above (.operator last) rest

/-- The same for the arguments of a call: the last one is left open. -/
def AcceptsAll (limits : Limits) (length : Nat) (stack : List Frame) (callee : String)
    (ts : List Token) (es : List (Expr Float)) (rest : List Token) : Prop :=
  ∃ above last front argument, es = front ++ [argument] ∧
    closeSum above last = (.call callee front :: stack, argument) ∧
    parseFrom limits length (.call callee [] :: stack) .operand (ts ++ rest) =
      parseFrom limits length above (.operator last) rest

theorem accepts_number {t : Token} {x : Float} (kind : t.kind = .number)
    (value : Decimal.readFloat? t.text = some x) (rest : List Token) :
    Accepts limits length stack [t] (.number x) rest .primary := by
  have read : step limits stack .operand t = .ok (complete stack (.number x)) := by
    rw [step, stepOperand, kind]
    simp only [value]
  exact parseFrom_cons read rest

theorem step_name {t : Token} (kind : t.kind = .identifier) :
    step limits stack .operand t = .ok (stack, .named t.text) := by
  rw [step, stepOperand, kind]

theorem accepts_reference {t : Token} (kind : t.kind = .identifier) {rest : List Token}
    (follow : CanFollow rest) :
    Accepts limits length stack [t] (.reference t.text) rest .primary := by
  rw [Accepts, List.singleton_append, parseFrom_cons (step_name kind), parseFrom_named follow]

/-- A name and an opening parenthesis start a call. -/
theorem parseFrom_call {name opening : Token} (isName : name.kind = .identifier)
    (opens : opening.kind = .leftParen)
    (room : exceeds (nesting stack + 1) limits.nesting = false) (rest : List Token) :
    parseFrom limits length stack .operand (name :: opening :: rest) =
      parseFrom limits length (.call name.text [] :: stack) .firstArgument rest := by
  have opened : step limits stack (.named name.text) opening =
      .ok (.call name.text [] :: stack, .firstArgument) := by
    rw [step, if_pos opens]
    exact openFrame_ok room
  rw [parseFrom_cons (step_name isName), parseFrom_cons opened]

theorem accepts_emptyCall {name opening closing : Token} (isName : name.kind = .identifier)
    (opens : opening.kind = .leftParen) (closes : closing.kind = .rightParen)
    (room : exceeds (nesting stack + 1) limits.nesting = false) (rest : List Token) :
    Accepts limits length stack [name, opening, closing] (.call name.text []) rest .primary := by
  have closed : step limits (.call name.text [] :: stack) .firstArgument closing =
      .ok (complete stack (.call name.text [])) := by
    simp only [step, closes]
  exact (parseFrom_call isName opens room (closing :: rest)).trans (parseFrom_cons closed rest)

theorem accepts_call {name opening closing : Token} {ts rest : List Token}
    {es : List (Expr Float)} (isName : name.kind = .identifier) (opens : opening.kind = .leftParen)
    (closes : closing.kind = .rightParen) (starts : StartsInside ts)
    (room : exceeds (nesting stack + 1) limits.nesting = false)
    (inside : AcceptsAll limits length stack name.text ts es (closing :: rest)) :
    Accepts limits length stack (name :: opening :: (ts ++ [closing])) (.call name.text es) rest
      .primary := by
  obtain ⟨above, last, front, argument, rfl, closed, read⟩ := inside
  have whole : name :: opening :: (ts ++ [closing]) ++ rest =
      name :: opening :: (ts ++ closing :: rest) := by simp
  rw [Accepts, whole, parseFrom_call isName opens room,
    parseFrom_firstArgument (starts.append _), read,
    parseFrom_cons (step_closing_call closes closed)]
  rfl

theorem accepts_group {opening closing : Token} {ts rest : List Token}
    (opens : opening.kind = .leftParen) (closes : closing.kind = .rightParen)
    (room : exceeds (nesting stack + 1) limits.nesting = false)
    (inside : Accepts limits length (.group :: stack) ts e (closing :: rest) .sum) :
    Accepts limits length stack (opening :: (ts ++ [closing])) e rest .primary := by
  have opened : step limits stack .operand opening = .ok (.group :: stack, .operand) := by
    rw [step, stepOperand, opens]
    exact openFrame_ok room
  obtain ⟨above, last, closed, -, read⟩ := inside trivial
  have whole : opening :: (ts ++ [closing]) ++ rest = opening :: (ts ++ closing :: rest) := by
    simp
  rw [Accepts, whole, parseFrom_cons opened, read, parseFrom_cons (step_closing_group closes closed)]
  rfl

theorem accepts_sign {t : Token} {ts rest : List Token} (isSign : t.IsSumSign)
    (room : exceeds (nesting stack + 1) limits.nesting = false)
    (argument : Accepts limits length (.sign (.ofSign t.text) :: stack) ts e rest .signed) :
    Accepts limits length stack (t :: ts) (.unary (.ofSign t.text) e) rest .signed := by
  rw [Accepts, List.cons_append, parseFrom_cons (step_sign isSign room), argument, complete_sign]

theorem accepts_signed {ts rest : List Token}
    (h : Accepts limits length stack ts e rest .signed) :
    Accepts limits length stack ts e rest .product := by
  intro settled
  rw [h, complete_of_settled settled]

theorem accepts_times {t : Token} {ts us rest : List Token} {l r : Expr Float}
    (isSign : t.IsProductSign) (left : Accepts limits length stack ts l (t :: (us ++ rest)) .product)
    (right : Accepts limits length (.product l (.ofSign t.text) :: stack) us r rest .signed) :
    Accepts limits length stack (ts ++ t :: us) (.binary (.ofSign t.text) l r) rest .product := by
  intro settled
  rw [List.append_assoc, List.cons_append, left settled, parseFrom_cons (step_times isSign), right,
    complete_product, complete_of_settled settled]

theorem accepts_product {ts rest : List Token}
    (h : Accepts limits length stack ts e rest .product) :
    Accepts limits length stack ts e rest .sum := by
  intro fresh
  exact ⟨stack, e, closeSum_of_fresh fresh e, fresh.settled, h fresh.settled⟩

theorem accepts_plus {t : Token} {ts us rest : List Token} {l r : Expr Float}
    (isSign : t.IsSumSign) (left : Accepts limits length stack ts l (t :: (us ++ rest)) .sum)
    (right : Accepts limits length (.sum l (.ofSign t.text) :: stack) us r rest .product) :
    Accepts limits length stack (ts ++ t :: us) (.binary (.ofSign t.text) l r) rest .sum := by
  intro fresh
  obtain ⟨above, last, closed, -, read⟩ := left fresh
  refine ⟨.sum l (.ofSign t.text) :: stack, r, rfl, trivial, ?_⟩
  rw [List.append_assoc, List.cons_append, read, parseFrom_cons (step_plus isSign closed),
    right trivial]

theorem acceptsAll_one {callee : String} {ts rest : List Token}
    (h : Accepts limits length (.call callee [] :: stack) ts e rest .sum) :
    AcceptsAll limits length stack callee ts [e] rest := by
  obtain ⟨above, last, closed, -, read⟩ := h trivial
  exact ⟨above, last, [], e, rfl, closed, read⟩

theorem acceptsAll_more {callee : String} {comma : Token} {ts us rest : List Token}
    {es : List (Expr Float)} (separates : comma.kind = .comma)
    (front : AcceptsAll limits length stack callee ts es (comma :: (us ++ rest)))
    (last : Accepts limits length (.call callee es :: stack) us e rest .sum) :
    AcceptsAll limits length stack callee (ts ++ comma :: us) (es ++ [e]) rest := by
  obtain ⟨above, pending, before, argument, rfl, closed, read⟩ := front
  obtain ⟨above', pending', closed', -, read'⟩ := last trivial
  refine ⟨above', pending', before ++ [argument], e, rfl, closed', ?_⟩
  rw [List.append_assoc, List.cons_append, read, parseFrom_cons (step_comma separates closed), read']

theorem canFollow_cons {t : Token} (kind : t.kind ≠ .leftParen) (rest : List Token) :
    CanFollow (t :: rest) := kind

mutual

/-- **The parser reads every derived phrase that the nesting limit allows.** -/
theorem Derives.accepted {p : Phrase} {ts : List Token} {e : Expr Float} {n : Nat} :
    Derives p ts e n → ∀ {stack : List Frame} {rest : List Token},
      limits.Allows (nesting stack) n → CanFollow rest → Accepts limits length stack ts e rest p
  | .number kind value, _, rest, _, _ => accepts_number kind value rest
  | .reference kind, _, _, _, follow => accepts_reference kind follow
  | .emptyCall isName opens closes, _, rest, room, _ =>
    accepts_emptyCall isName opens closes (Limits.allows_succ.mp room).1 rest
  | .call isName opens inside closes, _, rest, room, _ => by
    obtain ⟨first, others⟩ := Limits.allows_succ.mp room
    exact accepts_call isName opens closes inside.startsInside first
      (inside.accepted others (canFollow_cons (by simp [closes]) rest))
  | .group opens inside closes, _, rest, room, _ => by
    obtain ⟨first, others⟩ := Limits.allows_succ.mp room
    exact accepts_group opens closes first
      (inside.accepted (allows_inside rfl others) (canFollow_cons (by simp [closes]) rest))
  | .primary h, _, _, room, follow => h.accepted room follow
  | .sign isSign argument, _, _, room, follow => by
    obtain ⟨first, others⟩ := Limits.allows_succ.mp room
    exact accepts_sign isSign first (argument.accepted (allows_inside rfl others) follow)
  | .signed h, _, _, room, follow => accepts_signed (h.accepted room follow)
  | .times left isSign right, _, _, room, follow => by
    obtain ⟨roomLeft, roomRight⟩ := Limits.allows_max.mp room
    exact accepts_times isSign (left.accepted roomLeft (canFollow_cons (by simp [isSign.1]) _))
      (right.accepted roomRight follow)
  | .product h, _, _, room, follow => accepts_product (h.accepted room follow)
  | .plus left isSign right, _, _, room, follow => by
    obtain ⟨roomLeft, roomRight⟩ := Limits.allows_max.mp room
    exact accepts_plus isSign (left.accepted roomLeft (canFollow_cons (by simp [isSign.1]) _))
      (right.accepted roomRight follow)

theorem DerivesAll.accepted {ts : List Token} {es : List (Expr Float)} {n : Nat} :
    DerivesAll ts es n → ∀ {stack : List Frame} {callee : String} {rest : List Token},
      limits.Allows (nesting stack + 1) n → CanFollow rest →
        AcceptsAll limits length stack callee ts es rest
  | .one h, _, _, _, room, follow => acceptsAll_one (h.accepted (allows_inside rfl room) follow)
  | .more front separates last, _, _, _, room, follow => by
    obtain ⟨roomFront, roomLast⟩ := Limits.allows_max.mp room
    exact acceptsAll_more separates
      (front.accepted roomFront (canFollow_cons (by simp [separates]) _))
      (last.accepted (allows_inside rfl roomLast) follow)

end

end BusinessCase.Formula
