/-
BusinessCase.Proofs.Formula.Words — the words of formulas.

A word is a token without its place. Scanning takes the longest word off the
front of a text, whatever its kind, and a word is the longest one if it is none
any more with the next character behind it. So whether a word ends is decided
by one character more.

  §1 Words      — `Word.IsProper`.
  §2 Characters — what a name, a numeral and a single character start with.
  §3 Numerals   — what is split off behind the start of a numeral.
  §4 Fronts     — a word at the front, and what `lexeme` takes off there.
  §5 Longest    — `Word.IsLongest`, `isLongest_iff` and `tokensFrom_longest`.
-/
import BusinessCase.Proofs.Formula.Tokens

namespace BusinessCase.Formula

/-! ## §1 Words -/

/-- A token without its place. -/
structure Word where
  kind : TokenKind
  text : String
  deriving DecidableEq

def Token.word (t : Token) : Word := ⟨t.kind, t.text⟩

/-- The text is an identifier: a letter or an underscore, then letters, underscores and digits. -/
def isIdentifier (text : String) : Bool :=
  match text.toList with
  | [] => false
  | c :: rest => isIdentifierStart c && rest.all isIdentifierPart

namespace Word

/-- Scanning can give the word. -/
inductive IsProper : Word → Prop where
  | number {text : String} (plain : Decimal.IsPlainNumeral text.toList) : IsProper ⟨.number, text⟩
  | name {text : String} (named : isIdentifier text) : IsProper ⟨.identifier, text⟩
  | single {c : Char} {kind : TokenKind} (alone : singleKind? c = some kind) :
      IsProper ⟨kind, String.ofList [c]⟩

end Word

theorem isIdentifier_iff {text : String} :
    isIdentifier text ↔
      ∃ c cs, text.toList = c :: cs ∧ isIdentifierStart c ∧ ∀ d ∈ cs, isIdentifierPart d := by
  unfold isIdentifier
  split
  · next empty => simp [empty]
  · next c cs chars =>
    rw [chars, Bool.and_eq_true, List.all_eq_true]
    constructor
    · rintro ⟨start, parts⟩
      exact ⟨c, cs, rfl, start, parts⟩
    · rintro ⟨_, _, same, start, parts⟩
      cases same
      exact ⟨start, parts⟩

namespace Word

theorem IsProper.ne_nil {w : Word} (proper : w.IsProper) : w.text.toList ≠ [] := by
  cases proper with
  | number plain => exact plain.ne_nil
  | name named =>
    obtain ⟨c, cs, chars, -⟩ := isIdentifier_iff.mp named
    simp [chars]
  | single => simp

theorem IsProper.length_pos {w : Word} (proper : w.IsProper) : 0 < w.text.length := by
  rw [← String.length_toList]
  exact List.length_pos_iff.mpr proper.ne_nil

/-- No word starts with a space. -/
theorem IsProper.not_space {w : Word} (proper : w.IsProper) {rest : List Char} :
    w.text.toList ≠ ' ' :: rest := by
  intro chars
  cases proper with
  | number plain =>
    have first := plain.chars ' ' (by simp [chars])
    exact absurd first.toNat_range (by decide)
  | name named =>
    obtain ⟨c, cs, split, start, -⟩ := isIdentifier_iff.mp named
    obtain ⟨rfl, -⟩ := List.cons.inj (split.symm.trans chars)
    exact absurd start (by decide)
  | single alone =>
    obtain ⟨rfl, -⟩ := List.cons.inj (String.toList_ofList.symm.trans chars)
    cases alone

end Word

/-! ## §2 Characters -/

/-- The characters that are tokens by themselves. -/
theorem singleKind?_isSome {c : Char} {kind : TokenKind} (alone : singleKind? c = some kind) :
    c = '(' ∨ c = ')' ∨ c = ',' ∨ c = '+' ∨ c = '-' ∨ c = '*' ∨ c = '/' := by
  unfold singleKind? at alone
  split at alone
  · next same => simp [same]
  · split at alone
    · next same => simp [same]
    · split at alone
      · next same => simp [same]
      · split at alone
        · next sign =>
          have signs : c = '+' ∨ c = '-' ∨ c = '*' ∨ c = '/' := by
            simpa [isOperatorSign, or_assoc] using sign
          simp [signs]
        · cases alone

/-- A numeral or a name does not start with a character that is a token by itself. -/
theorem singleKind?_eq_none {c : Char} (h : c.isDigit ∨ c = '.' ∨ isIdentifierStart c) :
    singleKind? c = none := by
  cases alone : singleKind? c with
  | none => rfl
  | some kind =>
    rcases singleKind?_isSome alone with rfl | rfl | rfl | rfl | rfl | rfl | rfl <;>
      exact absurd h (by decide)

/-- Names do not start like numerals. -/
theorem startsNumeral_name {c : Char} (start : isIdentifierStart c) (rest : List Char) :
    startsNumeral c rest = false := by
  have range : c = '_' ∨ 65 ≤ c.toNat := by
    rcases Bool.or_eq_true_iff.mp start with same | letter
    · exact .inl (of_decide_eq_true same)
    · rcases Bool.or_eq_true_iff.mp letter with upper | lower
      · have bounds : 65 ≤ c.val ∧ c.val ≤ 90 := of_decide_eq_true upper
        exact .inr (UInt32.le_iff_toNat_le.mp bounds.1)
      · have bounds : (decide (97 ≤ c.val) && decide (c.val ≤ 122)) = true := lower
        have low : 97 ≤ c.toNat :=
          UInt32.le_iff_toNat_le.mp (of_decide_eq_true (Bool.and_eq_true_iff.mp bounds).1)
        exact .inr (by omega)
  have digit : c.isDigit = false := by
    rcases range with rfl | high
    · decide
    · cases digit : c.isDigit with
      | false => rfl
      | true =>
        have low := (Decimal.IsNumeralChar.toNat_range (.inl digit)).2
        omega
  have point : c ≠ '.' := by
    rintro rfl
    exact absurd start (by decide)
  simp [startsNumeral, digit, point]

/-! ## §3 Numerals -/

/-- Digits and points are split off as a whole, whatever follows them, if no more than one point is
among them. -/
theorem splitNumeral_run {cs : List Char} (chars : ∀ c ∈ cs, Decimal.IsNumeralChar c)
    {pointSeen : Bool} (points : cs.count '.' + (if pointSeen then 1 else 0) ≤ 1)
    (rest : List Char) :
    splitNumeral pointSeen (cs ++ rest) =
      (cs ++ (splitNumeral (pointSeen || cs.contains '.') rest).1,
        (splitNumeral (pointSeen || cs.contains '.') rest).2) := by
  induction cs generalizing pointSeen with
  | nil => simp
  | cons c cs ih =>
    obtain ⟨first, others⟩ := List.forall_mem_cons.mp chars
    have noDigit : ('.').isDigit = false := by decide
    rcases first with digit | rfl
    · have other : c ≠ '.' := by
        rintro rfl
        exact absurd digit (by decide)
      rw [List.count_cons_of_ne other] at points
      rw [List.cons_append, splitNumeral, if_pos digit, ih others points]
      simp [other.symm]
    · rw [List.count_cons_self] at points
      cases pointSeen with
      | true => simp at points
      | false =>
        have later : cs.count '.' + (if true then 1 else 0) ≤ 1 := by simpa using points
        simp [splitNumeral, noDigit, ih others later]

/-- A plain numeral starts a number token. -/
theorem startsNumeral_plain {c : Char} {cs : List Char}
    (plain : Decimal.IsPlainNumeral (c :: cs)) (rest : List Char) :
    startsNumeral c (cs ++ rest) = true := by
  obtain ⟨chars, points, d, member, digit⟩ := Decimal.isPlainNumeral_iff.mp plain
  rcases chars c List.mem_cons_self with first | rfl
  · simp [startsNumeral, first]
  · rw [List.count_cons_self] at points
    rcases List.mem_cons.mp member with rfl | member
    · exact absurd digit (by decide)
    · obtain ⟨e, later, rfl⟩ := List.exists_cons_of_ne_nil (List.ne_nil_of_mem member)
      have other : e ≠ '.' := by
        rintro rfl
        rw [List.count_cons_self] at points
        omega
      have next : e.isDigit := (chars e (by simp)).resolve_right other
      simp [startsNumeral, next]

/-- The rest of a plain numeral is split off, with all that goes on with it. -/
theorem splitNumeral_plain {c : Char} {cs : List Char} (plain : Decimal.IsPlainNumeral (c :: cs))
    (rest : List Char) :
    splitNumeral (c = '.') (cs ++ rest) =
      (cs ++ (splitNumeral ((c :: cs).contains '.') rest).1,
        (splitNumeral ((c :: cs).contains '.') rest).2) := by
  obtain ⟨chars, points, -⟩ := Decimal.isPlainNumeral_iff.mp plain
  have later : ∀ d ∈ cs, Decimal.IsNumeralChar d := fun d member =>
    chars d (List.mem_cons_of_mem c member)
  have seen : ((c :: cs).contains '.') = (decide (c = '.') || cs.contains '.') := by
    simp [eq_comm]
  rw [List.count_cons] at points
  rw [splitNumeral_run later (by simpa using points), seen]

/-! ## §4 Fronts -/

/-- What is taken off the front is a word. -/
theorem isProper_of_lexeme {c : Char} {rest : List Char} {l : Lexeme}
    (taken : lexeme c rest = some l) : (⟨l.kind, String.ofList l.chars⟩ : Word).IsProper := by
  unfold lexeme at taken
  split at taken
  · next kind alone =>
    cases taken
    exact .single alone
  · split at taken
    · next starts =>
      cases taken
      refine .number ?_
      rw [String.toList_ofList]
      exact isPlainNumeral_of_startsNumeral starts
    · split at taken
      · next start =>
        cases taken
        refine .name (isIdentifier_iff.mpr ⟨c, _, String.toList_ofList, start, fun d member => ?_⟩)
        exact List.mem_takeWhile_imp member
      · cases taken

/-- Where a word stands at the front, a word of its kind is taken off that is no shorter. -/
theorem exists_lexeme {w : Word} (proper : w.IsProper) {c : Char} {rest : List Char}
    (stands : w.text.toList <+: c :: rest) :
    ∃ l, lexeme c rest = some l ∧ l.kind = w.kind ∧ w.text.toList <+: l.chars := by
  obtain ⟨more, whole⟩ := stands
  cases proper with
  | @number text plain =>
    obtain ⟨d, cs, chars⟩ := List.exists_cons_of_ne_nil plain.ne_nil
    rw [chars, List.cons_append] at whole
    obtain ⟨rfl, rfl⟩ := List.cons.inj whole
    rw [chars] at plain
    have noSingle : singleKind? d = none := by
      rcases plain.chars d List.mem_cons_self with digit | point
      · exact singleKind?_eq_none (.inl digit)
      · exact singleKind?_eq_none (.inr (.inl point))
    rw [lexeme, noSingle]
    simp only [startsNumeral_plain plain, splitNumeral_plain plain, if_true]
    exact ⟨_, rfl, rfl, by simp [chars]⟩
  | @name text named =>
    obtain ⟨d, cs, chars, start, parts⟩ := isIdentifier_iff.mp named
    rw [chars, List.cons_append] at whole
    obtain ⟨rfl, rfl⟩ := List.cons.inj whole
    rw [lexeme, singleKind?_eq_none (.inr (.inr start))]
    simp only [startsNumeral_name start, start, if_true, Bool.false_eq_true, if_false]
    refine ⟨_, rfl, rfl, ?_⟩
    rw [chars, List.takeWhile_append_of_pos parts]
    simp
  | single alone =>
    rw [String.toList_ofList, List.singleton_append] at whole
    obtain ⟨rfl, rfl⟩ := List.cons.inj whole
    rw [lexeme, alone]
    exact ⟨_, rfl, rfl, by simp⟩

/-! ## §5 Longest -/

/-- The word stands at the front of the text, and no longer word of any kind does. -/
structure Word.IsLongest (w : Word) (cs : List Char) : Prop where
  proper : w.IsProper
  stands : w.text.toList <+: cs
  longest : ∀ v : Word, v.IsProper → v.text.toList <+: cs → v.text.length ≤ w.text.length

/-- **The longest word is taken off the front.** -/
theorem isLongest_of_lexeme {c : Char} {rest : List Char} {l : Lexeme}
    (taken : lexeme c rest = some l) :
    (⟨l.kind, String.ofList l.chars⟩ : Word).IsLongest (c :: rest) where
  proper := isProper_of_lexeme taken
  stands := by
    rw [String.toList_ofList, ← lexeme_append taken]
    exact List.prefix_append l.chars l.rest
  longest v proper stands := by
    obtain ⟨l', taken', -, within⟩ := exists_lexeme proper stands
    cases taken.symm.trans taken'
    rw [← String.length_toList, String.length_ofList]
    exact within.length_le

/-- There is only one longest word, and it is the one that is taken. -/
theorem lexeme_of_isLongest {w : Word} {c : Char} {rest : List Char}
    (longest : w.IsLongest (c :: rest)) :
    ∃ rest', c :: rest = w.text.toList ++ rest' ∧
      lexeme c rest = some ⟨w.kind, w.text.toList, rest'⟩ := by
  obtain ⟨⟨kind, chars, rest'⟩, taken, same, within⟩ :=
    exists_lexeme longest.proper longest.stands
  have whole := isLongest_of_lexeme taken
  have bound := longest.longest _ whole.proper whole.stands
  have equal : w.text.toList = chars := within.eq_of_length_le (by
    rw [String.length_toList]
    simpa using bound)
  cases same
  subst equal
  exact ⟨rest', (lexeme_append taken).symm, taken⟩

/-- Words at the front of one text are of one kind. -/
theorem kind_eq_of_prefix {v w : Word} (isWord : v.IsProper) (isWord' : w.IsProper) {cs : List Char}
    (stands : v.text.toList <+: cs) (stands' : w.text.toList <+: cs) : v.kind = w.kind := by
  cases cs with
  | nil => exact absurd (List.prefix_nil.mp stands) isWord.ne_nil
  | cons c rest =>
    obtain ⟨l, taken, kind, -⟩ := exists_lexeme isWord stands
    obtain ⟨l', taken', kind', -⟩ := exists_lexeme isWord' stands'
    cases taken.symm.trans taken'
    exact kind.symm.trans kind'

theorem isProper_number_iff {text : String} :
    (⟨.number, text⟩ : Word).IsProper ↔ Decimal.IsPlainNumeral text.toList := by
  refine ⟨fun proper => ?_, .number⟩
  cases proper with
  | number plain => exact plain
  | single alone => exact absurd rfl (singleKind?_eq_some alone).1

theorem isProper_identifier_iff {text : String} :
    (⟨.identifier, text⟩ : Word).IsProper ↔ isIdentifier text := by
  refine ⟨fun proper => ?_, .name⟩
  cases proper with
  | name named => exact named
  | single alone => exact absurd rfl (singleKind?_eq_some alone).2.1

/-- A numeral goes on with a digit, or with a point if it has none; a name with a letter, an
underscore or a digit; and a single character with nothing. -/
theorem Word.IsProper.goesOn {w : Word} (proper : w.IsProper) {c : Char}
    (longer : (⟨w.kind, w.text.push c⟩ : Word).IsProper) :
    (w.kind = .number ∧ (c.isDigit ∨ c = '.' ∧ '.' ∉ w.text.toList)) ∨
      (w.kind = .identifier ∧ isIdentifierPart c) := by
  cases proper with
  | number plain =>
    obtain ⟨chars, points, -⟩ := Decimal.isPlainNumeral_iff.mp (isProper_number_iff.mp longer)
    rw [String.toList_push] at chars points
    refine .inl ⟨rfl, (chars c (by simp)).imp (fun digit => digit) fun point => ⟨point, ?_⟩⟩
    rw [List.count_append, point, List.count_singleton_self] at points
    exact List.count_eq_zero.mp (by omega)
  | name named =>
    obtain ⟨d, ds, chars, -⟩ := isIdentifier_iff.mp named
    obtain ⟨e, es, chars', -, parts⟩ := isIdentifier_iff.mp (isProper_identifier_iff.mp longer)
    rw [String.toList_push, chars, List.cons_append] at chars'
    obtain ⟨rfl, rfl⟩ := List.cons.inj chars'
    exact .inr ⟨rfl, parts c (by simp)⟩
  | @single d kind alone =>
    generalize whole : (String.ofList [d]).push c = pushed at longer
    dsimp only at longer
    cases longer with
    | number => exact absurd rfl (singleKind?_eq_some alone).1
    | name => exact absurd rfl (singleKind?_eq_some alone).2.1
    | single =>
      have two := congrArg (fun s => s.toList.length) whole
      simp at two

/-- A word that a longer one starts with is still a word with one character more of it. -/
theorem isProper_push {v w : Word} (isWord : v.IsProper) (isWord' : w.IsProper) {c : Char}
    {more : List Char} (longer : v.text.toList = w.text.toList ++ c :: more) :
    (⟨w.kind, w.text.push c⟩ : Word).IsProper := by
  have kinds : v.kind = w.kind :=
    kind_eq_of_prefix isWord isWord' (List.prefix_refl _) (longer ▸ List.prefix_append _ _)
  obtain ⟨kind, text⟩ := w
  dsimp only at kinds longer ⊢
  subst kinds
  cases isWord with
  | @number whole plain =>
    obtain ⟨chars, points, -⟩ := Decimal.isPlainNumeral_iff.mp plain
    obtain ⟨-, -, d, member, digit⟩ :=
      Decimal.isPlainNumeral_iff.mp (isProper_number_iff.mp isWord')
    have front : text.toList ++ [c] <+: whole.toList := ⟨more, by simp [longer]⟩
    rw [isProper_number_iff, String.toList_push, Decimal.isPlainNumeral_iff]
    exact ⟨fun e among => chars e (front.subset among),
      (front.sublist.count_le '.').trans points, d, List.mem_append_left _ member, digit⟩
  | @name whole named =>
    obtain ⟨d, ds, chars, start, parts⟩ := isIdentifier_iff.mp (isProper_identifier_iff.mp isWord')
    obtain ⟨e, es, chars', -, parts'⟩ := isIdentifier_iff.mp named
    rw [chars, chars', List.cons_append] at longer
    obtain ⟨rfl, rfl⟩ := List.cons.inj longer
    refine isProper_identifier_iff.mpr (isIdentifier_iff.mpr ⟨e, ds ++ [c], ?_, start, ?_⟩)
    · rw [String.toList_push, chars, List.cons_append]
    · intro f among
      exact parts' f (by
        rcases List.mem_append.mp among with inFront | last
        · exact List.mem_append_left _ inFront
        · simp [List.mem_singleton.mp last])
  | single =>
    have one := congrArg List.length longer
    have some_char := List.length_pos_iff.mpr isWord'.ne_nil
    simp only [String.toList_ofList, List.length_append, List.length_cons, List.length_nil] at one
    dsimp only at some_char
    omega

/-- **One character decides.** A word at the front of a text is the longest one there if the next
character does not go on with it. -/
theorem isLongest_iff {w : Word} {rest : List Char} :
    w.IsLongest (w.text.toList ++ rest) ↔
      w.IsProper ∧ ∀ c ∈ rest.head?, ¬ (⟨w.kind, w.text.push c⟩ : Word).IsProper := by
  constructor
  · intro longest
    refine ⟨longest.proper, fun c next goesOn => ?_⟩
    obtain ⟨later, rfl⟩ := List.head?_eq_some_iff.mp next
    have bound := longest.longest _ goesOn ⟨later, by simp⟩
    rw [String.length_push] at bound
    omega
  · rintro ⟨proper, ends⟩
    refine ⟨proper, List.prefix_append _ _, fun v isWord stands =>
      Nat.le_of_not_lt fun longer => ?_⟩
    have shorter : w.text.toList.length < v.text.toList.length := by
      rwa [String.length_toList, String.length_toList]
    obtain ⟨behind, whole⟩ :=
      List.prefix_of_prefix_length_le (List.prefix_append _ rest) stands shorter.le
    obtain ⟨c, more, rfl⟩ := List.exists_cons_of_ne_nil (l := behind) (by
      rintro rfl
      rw [List.append_nil] at whole
      exact absurd (congrArg List.length whole) shorter.ne)
    rw [← whole, List.prefix_append_right_inj] at stands
    obtain ⟨later, rfl⟩ := stands
    exact ends c (by simp) (isProper_push isWord proper whole.symm)

/-- **The longest word at the front is the first token.** -/
theorem tokensFrom_longest {w : Word} {rest : List Char}
    (longest : w.IsLongest (w.text.toList ++ rest)) (offset : Nat) :
    tokensFrom offset (w.text.toList ++ rest) =
      (tokensFrom (offset + w.text.length) rest).map (⟨w.kind, w.text, offset⟩ :: ·) := by
  obtain ⟨c, cs, chars⟩ := List.exists_cons_of_ne_nil longest.proper.ne_nil
  have noSpace : c ≠ ' ' := by
    rintro rfl
    exact longest.proper.not_space chars
  rw [chars, List.cons_append] at longest ⊢
  obtain ⟨rest', whole, taken⟩ := lexeme_of_isLongest longest
  rw [chars, List.cons_append, List.cons.injEq, List.append_cancel_left_eq] at whole
  obtain rfl := whole.2
  rw [tokensFrom_cons offset noSpace taken, String.ofList_toList, String.length_toList]

end BusinessCase.Formula
