/-
BusinessCase.Proofs.Formula.Operands — the operands of a tree and the words of its text.

A number, a reference or a call comes from one word of the text, and every
number and name of the text becomes one of them, in the same order. A name
that an opening parenthesis follows is called, with as many arguments as there
are between that parenthesis and its partner; any other name is a reference.
So what a formula refers to and what it calls can be read off its words.

  §1 Words     — `operands`, `opensCall`, `argumentCount`.
  §2 Arguments — a phrase inside a call adds no separator to it.
  §3 Operands  — `StandsFor`, `Lists`, and what a derivation lists.
  §4 Names     — `read_operands`.
-/
import BusinessCase.Proofs.Formula.Reading

namespace BusinessCase.Formula

variable {e : Expr Float} {es : List (Expr Float)} {nodes : List (Expr Float)}
variable {p : Phrase} {n : Nat} {t : Token} {ts rest : List Token}

/-! ## §1 Words -/

/-- A number or a name. -/
def Token.isOperand (t : Token) : Bool := t.kind = .number || t.kind = .identifier

/-- The numbers and names among the tokens, in order, each with the tokens behind it. -/
def operands : List Token → List (Token × List Token)
  | [] => []
  | t :: behind => if t.isOperand then (t, behind) :: operands behind else operands behind

/-- Does an opening parenthesis come next? -/
def opensCall : List Token → Bool
  | [] => false
  | next :: _ => next.kind = .leftParen

/-- The commas up to the parenthesis that closes what is open, those inside of `depth` further
parentheses left out. -/
def separators (depth : Nat) : List Token → Nat
  | [] => 0
  | t :: rest =>
    match t.kind with
    | .leftParen => separators (depth + 1) rest
    | .rightParen => if depth = 0 then 0 else separators (depth - 1) rest
    | .comma => if depth = 0 then separators depth rest + 1 else separators depth rest
    | .number | .identifier | .operator => separators depth rest

/-- How many arguments stand between the parenthesis that comes next and its partner. -/
def argumentCount : List Token → Nat
  | _ :: first :: rest =>
    if first.kind = .rightParen then 0 else separators 0 (first :: rest) + 1
  | _ => 0

theorem mem_operands_iff {behind : List Token} :
    (t, behind) ∈ operands ts ↔ t.isOperand ∧ ∃ before, ts = before ++ t :: behind := by
  induction ts with
  | nil => simp [operands]
  | cons u us ih =>
    have split : (∃ before, u :: us = before ++ t :: behind) ↔
        (u = t ∧ us = behind) ∨ ∃ before, us = before ++ t :: behind := by
      constructor
      · rintro ⟨before, same⟩
        cases before with
        | nil => exact .inl (List.cons.inj same)
        | cons _ before => exact .inr ⟨before, (List.cons.inj same).2⟩
      · rintro (⟨rfl, rfl⟩ | ⟨before, rfl⟩)
        · exact ⟨[], rfl⟩
        · exact ⟨u :: before, rfl⟩
    rw [operands, split]
    cases kind : u.isOperand with
    | true =>
      simp only [if_true, List.mem_cons, Prod.mk.injEq, ih]
      constructor
      · rintro (⟨rfl, rfl⟩ | ⟨operand, before⟩)
        · exact ⟨kind, .inl ⟨rfl, rfl⟩⟩
        · exact ⟨operand, .inr before⟩
      · rintro ⟨operand, ⟨rfl, rfl⟩ | before⟩
        · exact .inl ⟨rfl, rfl⟩
        · exact .inr ⟨operand, before⟩
    | false =>
      simp only [Bool.false_eq_true, if_false, ih]
      constructor
      · rintro ⟨operand, before⟩
        exact ⟨operand, .inr before⟩
      · rintro ⟨operand, ⟨rfl, rfl⟩ | before⟩
        · simp [kind] at operand
        · exact ⟨operand, before⟩

theorem opensCall_eq_false_iff : opensCall ts = false ↔ CanFollow ts := by
  cases ts <;> simp [opensCall, CanFollow]

/-! ## §2 Arguments -/

section

variable (depth : Nat)

theorem separators_leftParen (kind : t.kind = .leftParen) :
    separators depth (t :: rest) = separators (depth + 1) rest := by
  simp [separators, kind]

theorem separators_rightParen (kind : t.kind = .rightParen) :
    separators (depth + 1) (t :: rest) = separators depth rest := by
  simp [separators, kind]

theorem separators_closed (kind : t.kind = .rightParen) : separators 0 (t :: rest) = 0 := by
  simp [separators, kind]

theorem separators_comma (kind : t.kind = .comma) :
    separators 0 (t :: rest) = separators 0 rest + 1 := by
  simp [separators, kind]

theorem separators_innerComma (kind : t.kind = .comma) :
    separators (depth + 1) (t :: rest) = separators (depth + 1) rest := by
  simp [separators, kind]

theorem separators_word (kind : t.kind = .number ∨ t.kind = .identifier ∨ t.kind = .operator) :
    separators depth (t :: rest) = separators depth rest := by
  rcases kind with kind | kind | kind <;> simp [separators, kind]

end

mutual

/-- The commas inside a phrase separate nothing outside of it. -/
theorem Derives.separators_append {p : Phrase} {ts : List Token} {e : Expr Float} {n : Nat} :
    Derives p ts e n → ∀ depth rest, separators depth (ts ++ rest) = separators depth rest
  | .number kind _, depth, rest => separators_word depth (.inl kind)
  | .reference kind, depth, rest => separators_word depth (.inr (.inl kind))
  | .emptyCall isName opens closes, depth, rest => by
    simp only [List.cons_append, List.nil_append]
    rw [separators_word depth (.inr (.inl isName)), separators_leftParen depth opens,
      separators_rightParen depth closes]
  | .call isName opens inside closes, depth, rest => by
    simp only [List.cons_append, List.append_assoc, List.nil_append]
    rw [separators_word depth (.inr (.inl isName)), separators_leftParen depth opens,
      inside.separators_inside, separators_rightParen depth closes]
  | .group opens inside closes, depth, rest => by
    simp only [List.cons_append, List.append_assoc, List.nil_append]
    rw [separators_leftParen depth opens, inside.separators_append,
      separators_rightParen depth closes]
  | .primary h, depth, rest => h.separators_append depth rest
  | .sign isSign argument, depth, rest => by
    rw [List.cons_append, separators_word depth (.inr (.inr isSign.1)), argument.separators_append]
  | .signed h, depth, rest => h.separators_append depth rest
  | .times left isSign right, depth, rest => by
    rw [List.append_assoc, left.separators_append, List.cons_append,
      separators_word depth (.inr (.inr isSign.1)), right.separators_append]
  | .product h, depth, rest => h.separators_append depth rest
  | .plus left isSign right, depth, rest => by
    rw [List.append_assoc, left.separators_append, List.cons_append,
      separators_word depth (.inr (.inr isSign.1)), right.separators_append]

theorem DerivesAll.separators_inside {ts : List Token} {es : List (Expr Float)} {n : Nat} :
    DerivesAll ts es n → ∀ depth rest,
      separators (depth + 1) (ts ++ rest) = separators (depth + 1) rest
  | .one h, depth, rest => h.separators_append (depth + 1) rest
  | .more front separates last, depth, rest => by
    rw [List.append_assoc, front.separators_inside, List.cons_append,
      separators_innerComma depth separates, last.separators_append]

end

/-- Between the arguments of a call stands one comma less than there are arguments. -/
theorem DerivesAll.separators_append {ts : List Token} {es : List (Expr Float)} {n : Nat} :
    DerivesAll ts es n → ∀ rest, separators 0 (ts ++ rest) + 1 = separators 0 rest + es.length
  | .one h, rest => by
    rw [h.separators_append, List.length_singleton]
  | .more front separates last, rest => by
    rw [List.append_assoc, front.separators_append, List.cons_append, separators_comma separates,
      last.separators_append, List.length_append, List.length_singleton]
    omega

/-- The words of a call tell how many arguments it has. -/
theorem DerivesAll.argumentCount_eq {opening closing : Token} (inside : DerivesAll ts es n)
    (closes : closing.kind = .rightParen) (rest : List Token) :
    argumentCount (opening :: (ts ++ closing :: rest)) = es.length := by
  have count := inside.separators_append (closing :: rest)
  rw [separators_closed closes, Nat.zero_add] at count
  obtain ⟨first, others, rfl, kind⟩ := inside.startsInside
  rw [List.cons_append] at count ⊢
  rw [argumentCount, if_neg kind, count]

/-! ## §3 Operands -/

/-- A number, a reference or a call. -/
def Expr.isOperand : Expr Float → Bool
  | .number _ | .reference _ | .call _ _ => true
  | .unary _ _ | .binary _ _ _ | .foreign => false

/-- The node that a number or a name becomes, with what stands behind it. -/
inductive StandsFor : Expr Float → Token × List Token → Prop where
  | number {t : Token} {behind : List Token} {x : Float} (kind : t.kind = .number)
      (value : Decimal.readFloat? t.text = some x) : StandsFor (.number x) (t, behind)
  | reference {t : Token} {behind : List Token} (kind : t.kind = .identifier)
      (alone : opensCall behind = false) : StandsFor (.reference t.text) (t, behind)
  | call {t : Token} {behind : List Token} {arguments : List (Expr Float)}
      (kind : t.kind = .identifier) (opens : opensCall behind = true)
      (count : argumentCount behind = arguments.length) :
      StandsFor (.call t.text arguments) (t, behind)

/-- The nodes are those of the numbers and names among the tokens, in order; `rest` stands behind
them. -/
inductive Lists : (nodes : List (Expr Float)) → (tokens rest : List Token) → Prop where
  | nil {rest : List Token} : Lists [] [] rest
  | skip {nodes : List (Expr Float)} {t : Token} {ts rest : List Token}
      (kind : t.isOperand = false) (h : Lists nodes ts rest) : Lists nodes (t :: ts) rest
  | operand {node : Expr Float} {nodes : List (Expr Float)} {t : Token} {ts rest : List Token}
      (stands : StandsFor node (t, ts ++ rest)) (h : Lists nodes ts rest) :
      Lists (node :: nodes) (t :: ts) rest

theorem StandsFor.isOperand {node : Expr Float} {behind : List Token}
    (h : StandsFor node (t, behind)) : t.isOperand := by
  cases h with
  | number kind => simp [Token.isOperand, kind]
  | reference kind => simp [Token.isOperand, kind]
  | call kind => simp [Token.isOperand, kind]

theorem Lists.append {more : List (Expr Float)} {us : List Token}
    (h : Lists nodes ts (us ++ rest)) (later : Lists more us rest) :
    Lists (nodes ++ more) (ts ++ us) rest := by
  -- A call is read off what stands behind its name, so that stays fixed in the induction.
  generalize behind : us ++ rest = all at h
  induction h with
  | nil => exact later
  | skip kind _ ih => exact .skip kind (ih behind)
  | operand stands _ ih =>
    subst behind
    rw [← List.append_assoc] at stands
    exact .operand stands (ih rfl)

/-- The words that are listed are all the numbers and names. -/
theorem Lists.forall₂ (h : Lists nodes ts []) : List.Forall₂ StandsFor nodes (operands ts) := by
  generalize none : ([] : List Token) = rest at h
  induction h with
  | nil => exact .nil
  | skip kind _ ih =>
    rw [operands, kind]
    exact ih none
  | operand stands _ ih =>
    subst none
    rw [List.append_nil] at stands
    rw [operands, if_pos stands.isOperand]
    exact .cons stands (ih rfl)

theorem Token.isOperand_of_kind (kind : t.kind ≠ .number ∧ t.kind ≠ .identifier) :
    t.isOperand = false := by
  simp [Token.isOperand, kind]

theorem Lists.parenthesized {opening closing : Token} (opens : opening.kind = .leftParen)
    (closes : closing.kind = .rightParen) (h : Lists nodes ts (closing :: rest)) :
    Lists nodes (opening :: (ts ++ [closing])) rest := by
  have last : Lists [] [closing] rest := .skip (Token.isOperand_of_kind (by simp [closes])) .nil
  have all := h.append last
  rw [List.append_nil] at all
  exact .skip (Token.isOperand_of_kind (by simp [opens])) all

theorem Lists.joined {more : List (Expr Float)} {us : List Token}
    (kind : t.kind ≠ .number ∧ t.kind ≠ .identifier) (h : Lists nodes ts (t :: (us ++ rest)))
    (later : Lists more us rest) : Lists (nodes ++ more) (ts ++ t :: us) rest :=
  Lists.append h (.skip (Token.isOperand_of_kind kind) later)

/-- An operator is no operand, and those on its left come first. -/
theorem Lists.binary {op : Operator} {l r : Expr Float} {us : List Token}
    (kind : t.kind ≠ .number ∧ t.kind ≠ .identifier)
    (left : Lists (l.preorder.filter Expr.isOperand) ts (t :: (us ++ rest)))
    (right : Lists (r.preorder.filter Expr.isOperand) us rest) :
    Lists ((Expr.binary op l r).preorder.filter Expr.isOperand) (ts ++ t :: us) rest := by
  rw [Expr.preorder, List.filter_cons_of_neg (by simp [Expr.isOperand]), List.filter_append]
  exact Lists.joined kind left right

mutual

/-- **A phrase lists the operands of its tree.** -/
theorem Derives.lists {p : Phrase} {ts : List Token} {e : Expr Float} {n : Nat} :
    Derives p ts e n → ∀ {rest : List Token}, CanFollow rest →
      Lists (e.preorder.filter Expr.isOperand) ts rest
  | .number kind value, _, _ => .operand (.number kind value) .nil
  | .reference kind, _, follow =>
    .operand (.reference kind (opensCall_eq_false_iff.mpr follow)) .nil
  | .emptyCall isName opens closes, _, _ =>
    .operand (.call isName (decide_eq_true opens) (if_pos closes))
      (Lists.parenthesized opens closes .nil)
  | @Derives.call name opening closing ts arguments n isName opens inside closes, rest, _ => by
    have follow : CanFollow (closing :: rest) := by simp [CanFollow, closes]
    refine .operand (.call isName (decide_eq_true opens) ?_)
      (Lists.parenthesized opens closes (inside.lists follow))
    -- The arguments are counted on the tokens, the rest of the text included.
    simpa using inside.argumentCount_eq closes rest
  | @Derives.group opening closing ts e n opens inside closes, rest, _ => by
    have follow : CanFollow (closing :: rest) := by simp [CanFollow, closes]
    exact Lists.parenthesized opens closes (inside.lists follow)
  | .primary h, _, follow => h.lists follow
  | .sign isSign argument, _, follow =>
    .skip (Token.isOperand_of_kind (by simp [isSign.1])) (argument.lists follow)
  | .signed h, _, follow => h.lists follow
  | .times left isSign right, _, follow =>
    Lists.binary (by simp [isSign.1]) (left.lists (canFollow_cons (by simp [isSign.1]) _))
      (right.lists follow)
  | .product h, _, follow => h.lists follow
  | .plus left isSign right, _, follow =>
    Lists.binary (by simp [isSign.1]) (left.lists (canFollow_cons (by simp [isSign.1]) _))
      (right.lists follow)

theorem DerivesAll.lists {ts : List Token} {es : List (Expr Float)} {n : Nat} :
    DerivesAll ts es n → ∀ {rest : List Token}, CanFollow rest →
      Lists ((Expr.preorderAll es).filter Expr.isOperand) ts rest
  | .one h, _, follow => by
    simpa [Expr.preorderAll] using h.lists follow
  | .more front separates last, rest, follow => by
    rw [Expr.preorderAll_append, List.filter_append]
    refine Lists.joined (by simp [separates])
      (front.lists (canFollow_cons (by simp [separates]) _)) ?_
    simpa [Expr.preorderAll] using last.lists follow

end

/-! ## §4 Names -/

/-- The name of a word that is none of a function. -/
def referenceWord? (word : Token × List Token) : Option String :=
  if word.1.kind = .identifier && !opensCall word.2 then some word.1.text else none

/-- The function that a word calls, and with how many arguments. -/
def callWord? (word : Token × List Token) : Option (String × Nat) :=
  if word.1.kind = .identifier && opensCall word.2 then
    some (word.1.text, argumentCount word.2)
  else none

theorem StandsFor.referenceName?_eq {node : Expr Float} {word : Token × List Token}
    (h : StandsFor node word) : node.referenceName? = referenceWord? word := by
  cases h with
  | number kind => simp [Expr.referenceName?, referenceWord?, kind]
  | reference kind alone => simp [Expr.referenceName?, referenceWord?, kind, alone]
  | call kind opens => simp [Expr.referenceName?, referenceWord?, opens]

theorem StandsFor.callShape?_eq {node : Expr Float} {word : Token × List Token}
    (h : StandsFor node word) : node.callShape? = callWord? word := by
  cases h with
  | number kind => simp [Expr.callShape?, callWord?, kind]
  | reference kind alone => simp [Expr.callShape?, callWord?, alone]
  | call kind opens count => simp [Expr.callShape?, callWord?, kind, opens, count]

theorem Expr.referenceName?_eq_none {node : Expr Float} (other : node.isOperand = false) :
    node.referenceName? = none := by
  cases node with
  | number | reference | call => cases other
  | unary | binary | foreign => rfl

theorem Expr.callShape?_eq_none {node : Expr Float} (other : node.isOperand = false) :
    node.callShape? = none := by
  cases node with
  | number | reference | call => cases other
  | unary | binary | foreign => rfl

/-- What is read off the operands of a tree can be read off their words. -/
theorem filterMap_operands {β : Type} {ofNode : Expr Float → Option β}
    {ofWord : Token × List Token → Option β} {words : List (Token × List Token)}
    (stand : List.Forall₂ StandsFor (nodes.filter Expr.isOperand) words)
    (same : ∀ node word, StandsFor node word → ofNode node = ofWord word)
    (others : ∀ node, node.isOperand = false → ofNode node = none) :
    nodes.filterMap ofNode = words.filterMap ofWord := by
  -- Signs and operators give nothing, so they can be left out first.
  have only : nodes.filterMap ofNode = (nodes.filter Expr.isOperand).filterMap ofNode := by
    rw [List.filterMap_filter]
    refine List.filterMap_congr fun node _ => ?_
    cases kind : node.isOperand with
    | true => simp
    | false => simp [others node kind]
  rw [only]
  generalize nodes.filter Expr.isOperand = found at stand
  induction stand with
  | nil => rfl
  | cons stands _ ih => rw [List.filterMap_cons, List.filterMap_cons, same _ _ stands, ih]

/-- **The operands of a tree are the numbers and names of its text.** The nodes of a formula that
are numbers, references or calls come one by one from the numbers and names of its text, both in
their order. So it refers to exactly the names that no opening parenthesis follows, and calls the
others in the order of the text, with as many arguments as stand between their parentheses. -/
theorem read_operands {limits : Limits} {expression : String}
    (formula : read limits expression = .ok e) :
    ∃ ts nodes, tokens expression = .ok ts ∧ e.nodes? = some nodes ∧
      List.Forall₂ StandsFor (nodes.filter Expr.isOperand) (operands ts) ∧
      (∀ name, name ∈ e.references ↔ ∃ before t behind, ts = before ++ t :: behind ∧
        t.kind = .identifier ∧ t.text = name ∧ opensCall behind = false) ∧
      e.calls = (operands ts).filterMap callWord? := by
  obtain ⟨-, ts, n, scanned, derived, -⟩ := read_eq_ok_iff.mp formula
  have nodes : e.nodes? = some e.preorder := by
    rw [Expr.nodes?_eq, if_pos derived.isProper]
  have listed : Lists (e.preorder.filter Expr.isOperand) ts [] := derived.lists trivial
  have stand := listed.forall₂
  have references : e.references = (operands ts).filterMap referenceWord? := by
    rw [Expr.references, Expr.references?, nodes]
    exact filterMap_operands stand (fun _ _ => StandsFor.referenceName?_eq)
      fun _ => Expr.referenceName?_eq_none
  have calls : e.calls = (operands ts).filterMap callWord? := by
    rw [Expr.calls, Expr.calls?, nodes]
    exact filterMap_operands stand (fun _ _ => StandsFor.callShape?_eq)
      fun _ => Expr.callShape?_eq_none
  refine ⟨ts, e.preorder, scanned, nodes, stand, fun name => ?_, calls⟩
  rw [references, List.mem_filterMap]
  constructor
  · rintro ⟨⟨t, behind⟩, member, named⟩
    obtain ⟨-, before, split⟩ := mem_operands_iff.mp member
    simp only [referenceWord?, Option.ite_none_right_eq_some, Bool.and_eq_true,
      decide_eq_true_eq, Bool.not_eq_true', Option.some.injEq] at named
    exact ⟨before, t, behind, split, named.1.1, named.2, named.1.2⟩
  · rintro ⟨before, t, behind, split, kind, text, alone⟩
    refine ⟨(t, behind), mem_operands_iff.mpr ⟨by simp [Token.isOperand, kind], before, split⟩, ?_⟩
    simp [referenceWord?, kind, alone, text]

/-- The theorem at `f(a,2)`: a call of two arguments, a reference and a number. -/
theorem read_operands_call :
    let e : Expr Float := .call "f" [.reference "a", .number 2]
    ∃ ts, read {} "f(a,2)" = .ok e ∧ tokens "f(a,2)" = .ok ts ∧
      List.Forall₂ StandsFor [e, .reference "a", .number 2] (operands ts) ∧
      ("a" ∈ e.references) ∧ e.calls = [("f", 2)] := by
  intro e
  have scanned : tokens "f(a,2)" = .ok [⟨.identifier, "f", 0⟩, ⟨.leftParen, "(", 1⟩,
      ⟨.identifier, "a", 2⟩, ⟨.comma, ",", 3⟩, ⟨.number, "2", 4⟩, ⟨.rightParen, ")", 5⟩] := by
    simp [tokens, tokensFrom, lexeme, singleKind?, isOperatorSign, startsNumeral, splitNumeral,
      isIdentifierStart, isIdentifierPart, Except.map]
  have first : Derives .sum [⟨.identifier, "a", 2⟩] (.reference "a") 0 :=
    .product (.signed (.primary (.reference rfl)))
  have second : Derives .sum [⟨.number, "2", 4⟩] (.number 2) 0 :=
    .product (.signed (.primary (.number rfl rfl)))
  have inside : DerivesAll [⟨.identifier, "a", 2⟩, ⟨.comma, ",", 3⟩, ⟨.number, "2", 4⟩]
      [.reference "a", .number 2] 0 := .more (.one first) rfl second
  have call : Derives .primary [⟨.identifier, "f", 0⟩, ⟨.leftParen, "(", 1⟩,
      ⟨.identifier, "a", 2⟩, ⟨.comma, ",", 3⟩, ⟨.number, "2", 4⟩, ⟨.rightParen, ")", 5⟩] e 1 :=
    .call rfl rfl inside rfl
  have formula : read {} "f(a,2)" = .ok e :=
    read_eq_ok_iff.mpr ⟨rfl, _, 1, scanned, .product (.signed (.primary call)), .inr rfl, rfl⟩
  obtain ⟨ts, nodes, scanned', nodes_eq, stand, references, calls⟩ := read_operands formula
  rw [scanned] at scanned'
  cases scanned'
  have listed : e.nodes? = some [e, .reference "a", .number 2] := by
    rw [Expr.nodes?_eq]
    rfl
  rw [listed] at nodes_eq
  cases nodes_eq
  refine ⟨_, formula, scanned, stand, (references "a").mpr ?_, calls.trans rfl⟩
  exact ⟨[⟨.identifier, "f", 0⟩, ⟨.leftParen, "(", 1⟩], _, _, rfl, rfl, rfl, rfl⟩

end BusinessCase.Formula
