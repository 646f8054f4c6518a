/-
BusinessCase.Proofs.Formula.Printing — trees written as formulas.

A tree is written with parentheses only where the grammar asks for them: around
an operand that binds weaker than its place demands, which is also the right
operand of an operator of the same kind. What is written is derived by the
grammar, with that tree; and nothing that is derived with the tree has fewer
tokens or opens less at once.

  §1 Trees   — `Numeral`, `Expr.map`, `Expr.isWritable`.
  §2 Words   — `Expr.words`, and what they open at once, `Expr.opened`.
  §3 Scans   — the words are proper, and do not run into each other.
  §4 Grammar — `derives_words`.
  §5 Fewest  — `Derives.words_le`.
-/
import BusinessCase.Proofs.Formula.Grammar
import BusinessCase.Proofs.Formula.Layout

namespace BusinessCase.Formula

/-! ## §1 Trees -/

/-- A number as a formula can write it. -/
structure Numeral where
  text : String
  value : Float
  plain : Decimal.IsPlainNumeral text.toList
  reads : Decimal.readFloat? text = some value

namespace Expr

variable {α β : Type}

mutual

/-- The same tree with other numbers. -/
def map (f : α → β) : Expr α → Expr β
  | number x => number (f x)
  | reference name => reference name
  | unary op argument => unary op (map f argument)
  | binary op left right => binary op (map f left) (map f right)
  | call callee arguments => call callee (mapAll f arguments)
  | foreign => foreign

def mapAll (f : α → β) : List (Expr α) → List (Expr β)
  | [] => []
  | e :: rest => map f e :: mapAll f rest

end

end Expr

/-- The operators that a formula writes before an operand. -/
def Operator.isSign : Operator → Bool
  | plus | minus => true
  | times | divide | other _ => false

/-- The operators that a formula writes between operands. -/
def Operator.isWritten : Operator → Bool
  | plus | minus | times | divide => true
  | other _ => false

mutual

/-- The names are identifiers, and the operators are those that formulas write. -/
def Expr.isWritable : Expr Numeral → Bool
  | .number _ => true
  | .reference name => isIdentifier name
  | .unary op argument => op.isSign && argument.isWritable
  | .binary op left right => op.isWritten && left.isWritable && right.isWritable
  | .call callee arguments => isIdentifier callee && allWritable arguments
  | .foreign => false

def allWritable : List (Expr Numeral) → Bool
  | [] => true
  | e :: rest => e.isWritable && allWritable rest

end

/-! ## §2 Words -/

namespace Phrase

/-- How strongly a phrase binds. -/
def rank : Phrase → Nat
  | sum => 0
  | product => 1
  | signed => 2
  | primary => 3

/-- The phrase that binds next stronger, as the right operand has to. -/
def next : Phrase → Phrase
  | sum => product
  | product => signed
  | signed | primary => primary

/-- Is a phrase of kind `q` in parentheses where a phrase of kind `p` has to stand? -/
def encloses (p q : Phrase) : Bool := q.rank < p.rank

end Phrase

/-- The kind of phrase that an operator between operands makes. -/
def Operator.phrase : Operator → Phrase
  | times | divide => .product
  | plus | minus | other _ => .sum

def Operator.word (op : Operator) : Word := ⟨.operator, op.sign⟩

namespace Word

def opening : Word := ⟨.leftParen, "("⟩

def closing : Word := ⟨.rightParen, ")"⟩

def comma : Word := ⟨.comma, ","⟩

/-- The words in parentheses, if need be. -/
def enclose (needed : Bool) (ws : List Word) : List Word :=
  if needed then opening :: (ws ++ [closing]) else ws

end Word

mutual

/-- The words of a tree where a phrase of kind `p` has to stand. -/
def Expr.words (p : Phrase) : Expr Numeral → List Word
  | .number n => [⟨.number, n.text⟩]
  | .reference name => [⟨.identifier, name⟩]
  | .unary op argument => Word.enclose (p.encloses .signed) (op.word :: argument.words .signed)
  | .binary op left right =>
    Word.enclose (p.encloses op.phrase)
      (left.words op.phrase ++ op.word :: right.words op.phrase.next)
  | .call callee arguments =>
    ⟨.identifier, callee⟩ :: Word.opening :: (wordsAll arguments ++ [Word.closing])
  | .foreign => []

/-- The words of arguments, with commas between them. -/
def wordsAll : List (Expr Numeral) → List Word
  | [] => []
  | e :: rest => e.words .sum ++ wordsBehind rest

/-- The words of the arguments that follow, each with its comma. -/
def wordsBehind : List (Expr Numeral) → List Word
  | [] => []
  | e :: rest => Word.comma :: (e.words .sum ++ wordsBehind rest)

end

/-- What an open sign, parenthesis and call count for. -/
structure Weights where
  sign : Nat
  group : Nat
  call : Nat
  /-- A call without arguments. -/
  emptyCall : Nat

/-- Each of them counts as one opening. -/
def Weights.openings : Weights := ⟨1, 1, 1, 1⟩

mutual

/-- The most that is open at once anywhere in the words of a tree. -/
def Expr.opened (weights : Weights) (p : Phrase) : Expr Numeral → Nat
  | .number _ | .reference _ | .foreign => 0
  | .unary _ argument =>
    argument.opened weights .signed + weights.sign +
      if p.encloses .signed then weights.group else 0
  | .binary op left right =>
    max (left.opened weights op.phrase) (right.opened weights op.phrase.next) +
      if p.encloses op.phrase then weights.group else 0
  | .call _ arguments =>
    if arguments.isEmpty then weights.emptyCall else openedAll weights arguments + weights.call

def openedAll (weights : Weights) : List (Expr Numeral) → Nat
  | [] => 0
  | e :: rest => max (e.opened weights .sum) (openedAll weights rest)

end

/-- A call opens one more than its arguments, also where it has none. -/
theorem opened_call (callee : String) (arguments : List (Expr Numeral)) (p : Phrase) :
    (Expr.call callee arguments).opened .openings p = openedAll .openings arguments + 1 := by
  cases arguments <;> simp [Expr.opened, openedAll, Weights.openings]

/-- The tree as a formula, with so many spaces before each word and behind them all. -/
def Expr.print (gap : Nat → Nat) (e : Expr Numeral) : String :=
  String.ofList (layout gap 0 (e.words .sum))

/-! ## §3 Scans -/

theorem isProper_opening : Word.opening.IsProper := .single (c := '(') rfl

theorem isProper_closing : Word.closing.IsProper := .single (c := ')') rfl

theorem isProper_comma : Word.comma.IsProper := .single (c := ',') rfl

theorem isProper_operator {op : Operator} (written : op.isWritten) : op.word.IsProper := by
  cases op with
  | plus => exact .single (c := '+') rfl
  | minus => exact .single (c := '-') rfl
  | times => exact .single (c := '*') rfl
  | divide => exact .single (c := '/') rfl
  | other => cases written

theorem isWritten_of_isSign {op : Operator} (isSign : op.isSign) : op.isWritten := by
  cases op <;> first | rfl | cases isSign

theorem isProper_enclose {needed : Bool} {ws : List Word} (proper : ∀ w ∈ ws, w.IsProper) :
    ∀ w ∈ Word.enclose needed ws, w.IsProper := by
  cases needed with
  | false => simpa [Word.enclose] using proper
  | true =>
    intro w member
    simp only [Word.enclose, if_true, List.mem_cons, List.mem_append, List.not_mem_nil,
      or_false] at member
    rcases member with rfl | inside | rfl
    · exact isProper_opening
    · exact proper w inside
    · exact isProper_closing

mutual

/-- The words of a writable tree are words that scanning can give. -/
theorem isProper_words : (e : Expr Numeral) → e.isWritable → ∀ p, ∀ w ∈ e.words p, w.IsProper
  | .number n, _, p => by
    intro w member
    have same : w = ⟨.number, n.text⟩ := by simpa [Expr.words] using member
    exact same ▸ .number n.plain
  | .reference name, writable, p => by
    intro w member
    have same : w = ⟨.identifier, name⟩ := by simpa [Expr.words] using member
    exact same ▸ .name writable
  | .unary op argument, writable, p => by
    simp only [Expr.isWritable, Bool.and_eq_true] at writable
    rw [Expr.words]
    refine isProper_enclose (List.forall_mem_cons.mpr ⟨?_, isProper_words argument writable.2 _⟩)
    exact isProper_operator (isWritten_of_isSign writable.1)
  | .binary op left right, writable, p => by
    simp only [Expr.isWritable, Bool.and_eq_true] at writable
    rw [Expr.words]
    refine isProper_enclose (List.forall_mem_append.mpr ⟨isProper_words left writable.1.2 _, ?_⟩)
    exact List.forall_mem_cons.mpr
      ⟨isProper_operator writable.1.1, isProper_words right writable.2 _⟩
  | .call callee arguments, writable, p => by
    simp only [Expr.isWritable, Bool.and_eq_true] at writable
    simp only [Expr.words, List.forall_mem_cons, List.forall_mem_append]
    exact ⟨.name writable.1, isProper_opening, isProper_wordsAll arguments writable.2,
      isProper_closing, by simp⟩
  | .foreign, writable, p => by simp [Expr.isWritable] at writable

theorem isProper_wordsAll : (es : List (Expr Numeral)) → allWritable es →
    ∀ w ∈ wordsAll es, w.IsProper
  | [], _ => by simp [wordsAll]
  | e :: rest, writable => by
    simp only [allWritable, Bool.and_eq_true] at writable
    rw [wordsAll]
    exact List.forall_mem_append.mpr
      ⟨isProper_words e writable.1 _, isProper_wordsBehind rest writable.2⟩

theorem isProper_wordsBehind : (es : List (Expr Numeral)) → allWritable es →
    ∀ w ∈ wordsBehind es, w.IsProper
  | [], _ => by simp [wordsBehind]
  | e :: rest, writable => by
    simp only [allWritable, Bool.and_eq_true] at writable
    rw [wordsBehind]
    exact List.forall_mem_cons.mpr ⟨isProper_comma, List.forall_mem_append.mpr
      ⟨isProper_words e writable.1 _, isProper_wordsBehind rest writable.2⟩⟩

end

/-- A single word between others keeps them apart. -/
theorem apart_join {w : Word} (single : w.isSingle) {ws us : List Word}
    (left : ws.IsChain Apart) (right : us.IsChain Apart) : (ws ++ w :: us).IsChain Apart := by
  refine List.isChain_append.mpr ⟨left, List.isChain_cons.mpr ⟨?_, right⟩, ?_⟩
  · intro next _
    exact .inl single
  · intro last _ first member
    have same : w = first := by simpa using member
    exact .inr (same ▸ single)

theorem apart_enclose {needed : Bool} {ws : List Word} (apart : ws.IsChain Apart) :
    (Word.enclose needed ws).IsChain Apart := by
  cases needed with
  | false => simpa [Word.enclose] using apart
  | true =>
    have inside : (ws ++ [Word.closing]).IsChain Apart := apart_join rfl apart (by simp)
    simpa [Word.enclose] using apart_join rfl List.IsChain.nil inside

theorem isSingle_operator (op : Operator) : op.word.isSingle := rfl

mutual

/-- The words of a tree do not run into each other. -/
theorem apart_words : (e : Expr Numeral) → (p : Phrase) → (e.words p).IsChain Apart
  | .number _, _ => by simp [Expr.words]
  | .reference _, _ => by simp [Expr.words]
  | .unary op argument, p => by
    rw [Expr.words]
    exact apart_enclose (apart_join (isSingle_operator op) List.IsChain.nil
      (apart_words argument .signed))
  | .binary op left right, p => by
    rw [Expr.words]
    exact apart_enclose (apart_join (isSingle_operator op) (apart_words left _)
      (apart_words right _))
  | .call callee arguments, p => by
    have inside : (wordsAll arguments ++ [Word.closing]).IsChain Apart :=
      apart_join rfl (apart_wordsAll arguments) List.IsChain.nil
    rw [Expr.words]
    exact apart_join rfl (List.IsChain.singleton _) inside
  | .foreign, _ => by simp [Expr.words]

theorem apart_wordsAll : (es : List (Expr Numeral)) → (wordsAll es).IsChain Apart
  | [] => by simp [wordsAll]
  | e :: rest => by
    rw [wordsAll]
    exact apart_behind (apart_words e .sum) rest

/-- Arguments that follow are kept apart by their commas. -/
theorem apart_behind {ws : List Word} (front : ws.IsChain Apart) :
    (es : List (Expr Numeral)) → (ws ++ wordsBehind es).IsChain Apart
  | [] => by simpa [wordsBehind] using front
  | e :: rest => by
    rw [wordsBehind]
    exact apart_join rfl front (apart_behind (apart_words e .sum) rest)

end

/-! ## §4 Grammar -/

/-- A phrase can stand where one that binds weaker can. -/
theorem Derives.loosen {p q : Phrase} {ts : List Token} {e : Expr Float} {n : Nat}
    (derived : Derives q ts e n) (le : p.rank ≤ q.rank) : Derives p ts e n := by
  cases q with
  | sum => cases p <;> first | exact derived | simp [Phrase.rank] at le
  | product =>
    cases p with
    | sum => exact .product derived
    | product => exact derived
    | signed | primary => simp [Phrase.rank] at le
  | signed =>
    cases p with
    | sum => exact .product (.signed derived)
    | product => exact .signed derived
    | signed => exact derived
    | primary => simp [Phrase.rank] at le
  | primary =>
    cases p with
    | sum => exact .product (.signed (.primary derived))
    | product => exact .signed (.primary derived)
    | signed => exact .primary derived
    | primary => exact derived

/-- Tokens whose words are in parentheses. -/
theorem tokens_enclosed {ts : List Token} {ws : List Word}
    (same : ts.map Token.word = Word.opening :: (ws ++ [Word.closing])) :
    ∃ t us t', ts = t :: (us ++ [t']) ∧ t.kind = .leftParen ∧ us.map Token.word = ws ∧
      t'.kind = .rightParen := by
  obtain ⟨t, rest, rfl, opens, same⟩ := List.map_eq_cons_iff.mp same
  obtain ⟨us, last, rfl, words, same⟩ := List.map_eq_append_iff.mp same
  obtain ⟨t', none, rfl, closes, same⟩ := List.map_eq_cons_iff.mp same
  obtain rfl := List.map_eq_nil_iff.mp same
  exact ⟨t, us, t', rfl, congrArg Word.kind opens, words, congrArg Word.kind closes⟩

/-- A token with a word. -/
theorem tokens_single {ts : List Token} {w : Word} (same : ts.map Token.word = [w]) :
    ∃ t, ts = [t] ∧ t.kind = w.kind ∧ t.text = w.text := by
  obtain ⟨t, rfl, word⟩ := List.map_eq_singleton_iff.mp same
  exact ⟨t, rfl, congrArg Word.kind word, congrArg Word.text word⟩

/-- Tokens with the words of a list in parentheses, or without. -/
theorem derives_enclose {p q : Phrase} {ts : List Token} {ws : List Word} {e : Expr Float} {n : Nat}
    (inside : ∀ us : List Token, us.map Token.word = ws → Derives q us e n)
    (same : ts.map Token.word = Word.enclose (p.encloses q) ws) :
    Derives p ts e (n + if p.encloses q then 1 else 0) := by
  cases needed : p.encloses q with
  | false =>
    rw [needed] at same
    have le : p.rank ≤ q.rank := by simpa [Phrase.encloses] using needed
    exact (inside ts same).loosen le
  | true =>
    rw [needed] at same
    obtain ⟨t, us, t', rfl, opens, words, closes⟩ := tokens_enclosed same
    have group : Derives .primary (t :: (us ++ [t'])) e (n + 1) :=
      .group opens ((inside us words).loosen (Nat.zero_le _)) closes
    exact group.loosen (by cases p <;> simp [Phrase.rank])

theorem ofSign_sign {op : Operator} (written : op.isWritten) : Operator.ofSign op.sign = op := by
  cases op <;> first | rfl | cases written

theorem isSumSign_of_word {op : Operator} (isSign : op.isSign) {t : Token}
    (same : t.word = op.word) : t.IsSumSign := by
  have text : t.text = op.sign := congrArg Word.text same
  refine ⟨congrArg Word.kind same, ?_⟩
  cases op with
  | plus => exact .inl text
  | minus => exact .inr text
  | times | divide | other => cases isSign

/-- The operator between two phrases derives what it is written for. -/
theorem derives_binary {op : Operator} (written : op.isWritten) {t : Token}
    (same : t.word = op.word) {ts us : List Token} {l r : Expr Float} {m n : Nat}
    (left : Derives op.phrase ts l m) (right : Derives op.phrase.next us r n) :
    Derives op.phrase (ts ++ t :: us) (.binary op l r) (max m n) := by
  have text : t.text = op.sign := congrArg Word.text same
  have node : Derives op.phrase (ts ++ t :: us) (.binary (.ofSign t.text) l r) (max m n) := by
    cases op with
    | plus => exact .plus left ⟨congrArg Word.kind same, .inl text⟩ right
    | minus => exact .plus left ⟨congrArg Word.kind same, .inr text⟩ right
    | times => exact .times left ⟨congrArg Word.kind same, .inl text⟩ right
    | divide => exact .times left ⟨congrArg Word.kind same, .inr text⟩ right
    | other => cases written
  rwa [text, ofSign_sign written] at node

mutual

/-- **What is written for a tree is derived with that tree.** -/
theorem derives_words : (e : Expr Numeral) → e.isWritable → ∀ {p : Phrase} {ts : List Token},
    ts.map Token.word = e.words p → Derives p ts (e.map Numeral.value) (e.opened .openings p)
  | .number n, _, p, ts, same => by
    obtain ⟨t, rfl, kind, text⟩ := tokens_single same
    have leaf : Derives .primary [t] (.number n.value) 0 := .number kind (text ▸ n.reads)
    exact leaf.loosen (by cases p <;> simp [Phrase.rank])
  | .reference name, _, p, ts, same => by
    obtain ⟨t, rfl, kind, text⟩ := tokens_single same
    have leaf : Derives .primary [t] (.reference t.text) 0 := .reference kind
    rw [text] at leaf
    exact leaf.loosen (by cases p <;> simp [Phrase.rank])
  | .unary op argument, writable, p, ts, same => by
    simp only [Expr.isWritable, Bool.and_eq_true] at writable
    rw [Expr.words] at same
    refine derives_enclose (fun us same => ?_) same
    obtain ⟨t, rest, rfl, first, others⟩ := List.map_eq_cons_iff.mp same
    have back : Operator.ofSign t.text = op := by
      rw [show t.text = op.sign from congrArg Word.text first,
        ofSign_sign (isWritten_of_isSign writable.1)]
    have node := Derives.sign (isSumSign_of_word writable.1 first)
      (derives_words argument writable.2 others)
    rwa [back] at node
  | .binary op left right, writable, p, ts, same => by
    simp only [Expr.isWritable, Bool.and_eq_true] at writable
    rw [Expr.words] at same
    refine derives_enclose (fun us same => ?_) same
    obtain ⟨before, rest, rfl, first, same⟩ := List.map_eq_append_iff.mp same
    obtain ⟨t, behind, rfl, sign, last⟩ := List.map_eq_cons_iff.mp same
    exact derives_binary writable.1.1 sign (derives_words left writable.1.2 first)
      (derives_words right writable.2 last)
  | .call callee arguments, writable, p, ts, same => by
    simp only [Expr.isWritable, Bool.and_eq_true] at writable
    rw [Expr.words] at same
    obtain ⟨name, rest, rfl, first, same⟩ := List.map_eq_cons_iff.mp same
    obtain ⟨t, inside, t', rfl, opens, words, closes⟩ := tokens_enclosed same
    have isName : name.kind = .identifier := congrArg Word.kind first
    have text : name.text = callee := congrArg Word.text first
    have node : Derives .primary (name :: t :: (inside ++ [t']))
        (.call name.text (Expr.mapAll Numeral.value arguments))
        (openedAll .openings arguments + 1) := by
      by_cases empty : arguments = []
      · subst empty
        obtain rfl := List.map_eq_nil_iff.mp words
        exact .emptyCall isName opens closes
      · exact .call isName opens (derives_wordsAll arguments empty writable.2 words) closes
    rw [text, ← opened_call callee arguments p] at node
    exact node.loosen (by cases p <;> simp [Phrase.rank])
  | .foreign, writable, _, _, _ => by simp [Expr.isWritable] at writable

theorem derives_wordsAll : (es : List (Expr Numeral)) → es ≠ [] → allWritable es →
    ∀ {ts : List Token}, ts.map Token.word = wordsAll es →
      DerivesAll ts (Expr.mapAll Numeral.value es) (openedAll .openings es)
  | [], some_argument, _, _, _ => absurd rfl some_argument
  | e :: rest, _, writable, ts, same => by
    simp only [allWritable, Bool.and_eq_true] at writable
    rw [wordsAll] at same
    obtain ⟨first, behind, rfl, words, same⟩ := List.map_eq_append_iff.mp same
    exact derives_behind rest writable.2 (.one (derives_words e writable.1 words)) same

/-- Arguments that follow those that are derived already. -/
theorem derives_behind : (es : List (Expr Numeral)) → allWritable es →
    ∀ {ts us : List Token} {front : List (Expr Float)} {n : Nat}, DerivesAll ts front n →
      us.map Token.word = wordsBehind es →
        DerivesAll (ts ++ us) (front ++ Expr.mapAll Numeral.value es)
          (max n (openedAll .openings es))
  | [], _, ts, us, front, n, derived, same => by
    obtain rfl := List.map_eq_nil_iff.mp same
    simpa [Expr.mapAll, openedAll] using derived
  | e :: rest, writable, ts, us, front, n, derived, same => by
    simp only [allWritable, Bool.and_eq_true] at writable
    rw [wordsBehind] at same
    obtain ⟨t, others, rfl, separates, same⟩ := List.map_eq_cons_iff.mp same
    obtain ⟨next, behind, rfl, words, same⟩ := List.map_eq_append_iff.mp same
    have more := derived.more (congrArg Word.kind separates) (derives_words e writable.1 words)
    have all := derives_behind rest writable.2 more same
    simpa [Expr.mapAll, openedAll, Nat.max_assoc] using all

end

/-! ## §5 Fewest -/

theorem length_enclose (needed : Bool) (ws : List Word) :
    (Word.enclose needed ws).length = ws.length + if needed then 2 else 0 := by
  cases needed <;> simp [Word.enclose]

/-- Where a weaker phrase can stand, no more words are needed and no more is open. -/
theorem words_mono (e : Expr Numeral) {p q : Phrase} (le : p.rank ≤ q.rank) :
    (e.words p).length ≤ (e.words q).length ∧ e.opened .openings p ≤ e.opened .openings q := by
  have fewer (r : Phrase) : (if p.encloses r then 2 else 0) ≤ (if q.encloses r then 2 else 0) ∧
      (if p.encloses r then 1 else 0) ≤ (if q.encloses r then 1 else 0) := by
    simp only [Phrase.encloses, decide_eq_true_eq]
    split <;> split <;> omega
  cases e with
  | unary op argument =>
    have bound := fewer .signed
    simp only [Expr.words, Expr.opened, length_enclose, Weights.openings]
    omega
  | binary op left right =>
    have bound := fewer op.phrase
    simp only [Expr.words, Expr.opened, length_enclose, Weights.openings]
    omega
  | number | reference | call | foreign => simp [Expr.words, Expr.opened]

/-- Parentheses are two words and one opening. -/
theorem words_group (e : Expr Numeral) (p : Phrase) :
    (e.words p).length ≤ (e.words .sum).length + 2 ∧
      e.opened .openings p ≤ e.opened .openings .sum + 1 := by
  have none (r : Phrase) : Phrase.sum.encloses r = false := by simp [Phrase.encloses, Phrase.rank]
  cases e with
  | unary op argument =>
    simp only [Expr.words, Expr.opened, length_enclose, Weights.openings, none]
    split <;> simp
  | binary op left right =>
    simp only [Expr.words, Expr.opened, length_enclose, Weights.openings, none]
    split <;> simp
  | number | reference | call | foreign => simp [Expr.words, Expr.opened]

theorem mapAll_eq {α β : Type} (f : α → β) (es : List (Expr α)) :
    Expr.mapAll f es = es.map (Expr.map f) := by
  induction es with
  | nil => rfl
  | cons e rest ih => rw [Expr.mapAll, ih, List.map_cons]

theorem wordsBehind_concat (es : List (Expr Numeral)) (e : Expr Numeral) :
    wordsBehind (es ++ [e]) = wordsBehind es ++ Word.comma :: e.words .sum := by
  induction es with
  | nil => simp [wordsBehind]
  | cons first rest ih => simp [wordsBehind, ih]

theorem wordsAll_concat {es : List (Expr Numeral)} (some_argument : es ≠ []) (e : Expr Numeral) :
    wordsAll (es ++ [e]) = wordsAll es ++ Word.comma :: e.words .sum := by
  cases es with
  | nil => exact absurd rfl some_argument
  | cons first rest => simp [wordsAll, wordsBehind_concat]

theorem openedAll_concat (weights : Weights) (es : List (Expr Numeral)) (e : Expr Numeral) :
    openedAll weights (es ++ [e]) = max (openedAll weights es) (e.opened weights .sum) := by
  induction es with
  | nil => simp [openedAll]
  | cons first rest ih => simp [openedAll, ih, Nat.max_assoc]

theorem phrase_of_isSumSign {t : Token} (isSign : t.IsSumSign) :
    (Operator.ofSign t.text).phrase = .sum := by
  rcases isSign.2 with text | text <;> rw [text] <;> rfl

theorem phrase_of_isProductSign {t : Token} (isSign : t.IsProductSign) :
    (Operator.ofSign t.text).phrase = .product := by
  rcases isSign.2 with text | text <;> rw [text] <;> rfl

mutual

/-- **Nothing that is derived with a tree is shorter than what is written for it**, or opens less at
once. -/
theorem Derives.words_le {p : Phrase} {ts : List Token} {tree : Expr Float} {n : Nat} :
    Derives p ts tree n → ∀ e : Expr Numeral, e.map Numeral.value = tree →
      (e.words p).length ≤ ts.length ∧ e.opened .openings p ≤ n
  | .number _ _, e, same => by
    cases e <;> simp [Expr.map] at same
    simp [Expr.words, Expr.opened]
  | .reference _, e, same => by
    cases e <;> simp [Expr.map] at same
    simp [Expr.words, Expr.opened]
  | .emptyCall _ _ _, e, same => by
    cases e <;> simp [Expr.map] at same
    obtain ⟨-, none⟩ := same
    obtain rfl := List.map_eq_nil_iff.mp ((mapAll_eq _ _).symm.trans none)
    simp [Expr.words, wordsAll, opened_call, openedAll]
  | .call _ _ inside _, e, same => by
    cases e <;> simp [Expr.map] at same
    have bound := inside.words_le _ same.2
    simp [Expr.words, opened_call] at bound ⊢
    omega
  | .group _ inside _, e, same => by
    have bound := inside.words_le e same
    have group := words_group e .primary
    simp
    omega
  | .primary h, e, same => by
    have bound := h.words_le e same
    have weaker := words_mono e (by decide : Phrase.signed.rank ≤ Phrase.primary.rank)
    omega
  | .sign _ argument, e, same => by
    cases e <;> simp [Expr.map] at same
    have bound := argument.words_le _ same.2
    have bare : Phrase.signed.encloses .signed = false := by decide
    simp [Expr.words, Expr.opened, Weights.openings, length_enclose, bare] at bound ⊢
    omega
  | .signed h, e, same => by
    have bound := h.words_le e same
    have weaker := words_mono e (by decide : Phrase.product.rank ≤ Phrase.signed.rank)
    omega
  | .times left isSign right, e, same => by
    cases e <;> simp [Expr.map] at same
    obtain ⟨rfl, sameLeft, sameRight⟩ := same
    have first := left.words_le _ sameLeft
    have last := right.words_le _ sameRight
    have bare : Phrase.product.encloses .product = false := by decide
    simp [Expr.words, Expr.opened, Weights.openings, length_enclose, bare, Phrase.next,
      phrase_of_isProductSign isSign] at first last ⊢
    omega
  | .product h, e, same => by
    have bound := h.words_le e same
    have weaker := words_mono e (by decide : Phrase.sum.rank ≤ Phrase.product.rank)
    omega
  | .plus left isSign right, e, same => by
    cases e <;> simp [Expr.map] at same
    obtain ⟨rfl, sameLeft, sameRight⟩ := same
    have first := left.words_le _ sameLeft
    have last := right.words_le _ sameRight
    have bare : Phrase.sum.encloses .sum = false := by decide
    simp [Expr.words, Expr.opened, Weights.openings, length_enclose, bare, Phrase.next,
      phrase_of_isSumSign isSign] at first last ⊢
    omega

theorem DerivesAll.words_le {ts : List Token} {trees : List (Expr Float)} {n : Nat} :
    DerivesAll ts trees n → ∀ es : List (Expr Numeral), Expr.mapAll Numeral.value es = trees →
      (wordsAll es).length ≤ ts.length ∧ openedAll .openings es ≤ n
  | .one h, es, same => by
    rw [mapAll_eq] at same
    obtain ⟨e, rfl, single⟩ := List.map_eq_singleton_iff.mp same
    have bound := h.words_le e single
    simpa [wordsAll, wordsBehind, openedAll] using bound
  | .more front _ last, es, same => by
    rw [mapAll_eq] at same
    obtain ⟨before, behind, rfl, sameFront, sameLast⟩ := List.map_eq_append_iff.mp same
    obtain ⟨e, rfl, single⟩ := List.map_eq_singleton_iff.mp sameLast
    have some_argument : before ≠ [] := by
      intro empty
      rw [empty] at sameFront
      exact front.ne_nil sameFront.symm
    have first := front.words_le before ((mapAll_eq _ _).trans sameFront)
    have bound := last.words_le e single
    simp [wordsAll_concat some_argument, openedAll_concat]
    omega

end

end BusinessCase.Formula
