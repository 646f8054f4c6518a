/-
BusinessCase.Proofs.Formula.Scan — what the tokens of a text are, and which
texts have none.

A text is cut into tokens in one way only: at every character that is not a
space and not inside the token before it, the longest word that stands there is
the next token. There are no tokens where some character that is no space
starts no word. The first such character is one that no formula has, or a point
that neither goes on with a numeral nor is followed by a digit.

  §1 Alphabet — `inAlphabet`, and the characters that start no word.
  §2 Tokens   — `IsScan`, and `tokensFrom_eq_ok_iff`.
  §3 Stuck    — `Stuck`, and `tokensFrom_eq_error_iff`.
  §4 Codes    — places counted in code points.
  §5 Whole    — `tokens_exact`.
-/
import BusinessCase.Proofs.Formula.Words
import BusinessCase.Proofs.Steps

namespace BusinessCase.Formula

/-! ## §1 Alphabet -/

/-- The characters of formulas. -/
def inAlphabet (c : Char) : Bool :=
  isIdentifierPart c || [' ', '.', ',', '(', ')', '+', '-', '*', '/'].contains c

theorem inAlphabet_of_single {c : Char} {kind : TokenKind} (alone : singleKind? c = some kind) :
    inAlphabet c := by
  rcases singleKind?_isSome alone with rfl | rfl | rfl | rfl | rfl | rfl | rfl <;> rfl

/-- A character starts no word if no formula has it, or if it is a point without a digit behind. -/
theorem lexeme_eq_none_iff {c : Char} {rest : List Char} (noSpace : c ≠ ' ') :
    lexeme c rest = none ↔
      inAlphabet c = false ∨ c = '.' ∧ rest.head?.any Char.isDigit = false := by
  unfold lexeme
  cases alone : singleKind? c with
  | some kind =>
    have noPoint : c ≠ '.' := by
      rintro rfl
      cases alone
    simp [inAlphabet_of_single alone, noPoint]
  | none =>
    have other : c ≠ '(' ∧ c ≠ ')' ∧ c ≠ ',' ∧ c ≠ '+' ∧ c ≠ '-' ∧ c ≠ '*' ∧ c ≠ '/' := by
      refine ⟨?_, ?_, ?_, ?_, ?_, ?_, ?_⟩ <;> (rintro rfl; cases alone)
    by_cases point : c = '.'
    · subst point
      have noDigit : ('.').isDigit = false := by decide
      have noStart : isIdentifierStart '.' = false := by decide
      have listed : inAlphabet '.' = true := by decide
      simp [startsNumeral, noDigit, noStart, listed]
    · by_cases digit : c.isDigit
      · simp [startsNumeral, digit, point, inAlphabet, isIdentifierPart]
      · by_cases start : isIdentifierStart c
        · simp [startsNumeral, digit, point, start, inAlphabet, isIdentifierPart]
        · simp [startsNumeral, digit, start, point, noSpace, other, inAlphabet, isIdentifierPart]

/-- Words consist of the characters of formulas. -/
theorem Word.IsProper.chars {w : Word} (proper : w.IsProper) :
    ∀ c ∈ w.text.toList, inAlphabet c := by
  intro c member
  cases proper with
  | number plain =>
    rcases plain.chars c member with digit | rfl
    · simp [inAlphabet, isIdentifierPart, digit]
    · rfl
  | name named =>
    obtain ⟨d, ds, chars, start, parts⟩ := isIdentifier_iff.mp named
    rw [chars] at member
    rcases List.mem_cons.mp member with rfl | later
    · simp [inAlphabet, isIdentifierPart, start]
    · simp [inAlphabet, parts c later]
  | single alone =>
    rw [String.toList_ofList, List.mem_singleton] at member
    subst member
    exact inAlphabet_of_single alone

/-! ## §2 Tokens -/

/-- The place behind a token. -/
def Token.stop (t : Token) : Nat := t.offset + t.text.length

/-- The tokens are those of the text from the place `start` on. -/
structure IsScan (text : List Char) (start : Nat) (ts : List Token) : Prop where
  inside : ∀ t ∈ ts, start ≤ t.offset
  /-- Each token starts where those before it have ended, or later. -/
  ordered : ts.Pairwise fun t u => t.offset < u.offset ∧ t.stop ≤ u.offset
  /-- Each token is the longest word that stands at its place. -/
  words : ∀ t ∈ ts, t.word.IsLongest (text.drop t.offset)
  /-- Between the tokens there are spaces only. -/
  spaces : ∀ i c, start ≤ i → text[i]? = some c →
    (∀ t ∈ ts, ¬ (t.offset ≤ i ∧ i < t.stop)) → c = ' '

variable {text : List Char} {start : Nat} {ts : List Token}

theorem isScan_nil (done : text.drop start = []) : IsScan text start ts ↔ ts = [] := by
  have short : text.length ≤ start := List.drop_eq_nil_iff.mp done
  constructor
  · refine fun scan => List.eq_nil_iff_forall_not_mem.mpr fun t member => ?_
    have empty : text.drop t.offset = [] :=
      List.drop_eq_nil_iff.mpr (short.trans (scan.inside t member))
    have stands := (scan.words t member).stands
    rw [empty, List.prefix_nil] at stands
    exact (scan.words t member).proper.ne_nil stands
  · rintro rfl
    refine ⟨by simp, .nil, by simp, fun i c from_start found => ?_⟩
    rw [List.getElem?_eq_none (short.trans from_start)] at found
    cases found

/-- No token starts at a space. -/
theorem isScan_space {rest : List Char} (front : text.drop start = ' ' :: rest) :
    IsScan text start ts ↔ IsScan text (start + 1) ts := by
  have first : text[start]? = some ' ' := by
    rw [← List.head?_drop, front, List.head?_cons]
  constructor
  · intro scan
    refine ⟨fun t member => ?_, scan.ordered, scan.words, fun i c from_start =>
      scan.spaces i c (by omega)⟩
    refine Nat.lt_of_le_of_ne (scan.inside t member) fun same => ?_
    have longest := scan.words t member
    rw [← same, front] at longest
    obtain ⟨c, cs, chars⟩ := List.exists_cons_of_ne_nil longest.proper.ne_nil
    obtain ⟨more, whole⟩ := longest.stands
    rw [chars, List.cons_append] at whole
    obtain ⟨rfl, -⟩ := List.cons.inj whole
    exact longest.proper.not_space chars
  · intro scan
    refine ⟨fun t member => ?_, scan.ordered, scan.words, fun i c from_start found outside => ?_⟩
    · have later := scan.inside t member
      omega
    · rcases Nat.eq_or_lt_of_le from_start with rfl | later
      · exact (Option.some.inj (first.symm.trans found)).symm
      · exact scan.spaces i c later found outside

/-- Where there is no space, the longest word is the next token, and the others follow it. -/
theorem isScan_word {c : Char} {rest : List Char} (front : text.drop start = c :: rest)
    (noSpace : c ≠ ' ') :
    IsScan text start ts ↔
      ∃ t later, ts = t :: later ∧ t.offset = start ∧ t.word.IsLongest (text.drop start) ∧
        IsScan text t.stop later := by
  have first : text[start]? = some c := by
    rw [← List.head?_drop, front, List.head?_cons]
  constructor
  · intro scan
    -- Some token covers the place, and as none starts before it, that token starts there.
    obtain ⟨t, member, covers, within⟩ : ∃ t ∈ ts, t.offset ≤ start ∧ start < t.stop := by
      by_contra none
      push Not at none
      refine noSpace (scan.spaces start c (Nat.le_refl start) first fun t member => ?_)
      exact fun covers => Nat.not_lt.mpr (none t member covers.1) covers.2
    have starts : t.offset = start := Nat.le_antisymm covers (scan.inside t member)
    obtain ⟨head, later, rfl⟩ := List.exists_cons_of_ne_nil (List.ne_nil_of_mem member)
    obtain ⟨before, ordered⟩ := List.pairwise_cons.mp scan.ordered
    have isHead : t = head := by
      refine (List.mem_cons.mp member).resolve_right fun behind => ?_
      have order := (before t behind).1
      have inside := scan.inside head List.mem_cons_self
      omega
    subst isHead
    refine ⟨t, later, rfl, starts, starts ▸ scan.words t member, fun u behind =>
      (before u behind).2, ordered, fun u behind => scan.words u (List.mem_cons_of_mem t behind),
      fun i d behind found outside => scan.spaces i d (by omega) found fun u among => ?_⟩
    rcases List.mem_cons.mp among with rfl | behind'
    · omega
    · exact outside u behind'
  · rintro ⟨t, later, rfl, rfl, longest, scan⟩
    have some_char : t.offset < t.stop := Nat.lt_add_of_pos_right longest.proper.length_pos
    refine ⟨List.forall_mem_cons.mpr ⟨Nat.le_refl _, fun u behind => ?_⟩,
      List.pairwise_cons.mpr ⟨fun u behind => ?_, scan.ordered⟩,
      List.forall_mem_cons.mpr ⟨longest, scan.words⟩, fun i d from_start found outside => ?_⟩
    · exact some_char.le.trans (scan.inside u behind)
    · have after := scan.inside u behind
      exact ⟨some_char.trans_le after, after⟩
    · obtain ⟨notFirst, notLater⟩ := List.forall_mem_cons.mp outside
      exact scan.spaces i d (by omega) found notLater

/-- **The tokens of a text, exactly.** -/
theorem tokensFrom_eq_ok_iff {cs : List Char} (front : text.drop start = cs) :
    tokensFrom start cs = .ok ts ↔ IsScan text start ts := by
  fun_induction tokensFrom start cs generalizing ts with
  | case1 start =>
    rw [isScan_nil front, Except.ok.injEq, eq_comm]
  | case2 start rest ih =>
    have next : text.drop (start + 1) = rest := by
      rw [← List.drop_drop, front, List.drop_one, List.tail_cons]
    rw [isScan_space front, ih next]
  | case3 start c rest noSpace stuck =>
    rw [isScan_word front noSpace]
    refine iff_of_false (by rintro ⟨⟩) ?_
    rintro ⟨t, later, -, -, longest, -⟩
    rw [front] at longest
    obtain ⟨l, taken, -⟩ := exists_lexeme longest.proper longest.stands
    rw [stuck] at taken
    cases taken
  | case4 start c rest noSpace l taken ih =>
    have next : text.drop (start + l.chars.length) = l.rest := by
      rw [← List.drop_drop, front, ← lexeme_append taken, List.drop_left]
    rw [isScan_word front noSpace]
    constructor
    · intro done
      obtain ⟨later, others, rfl⟩ := map_eq_ok done
      refine ⟨_, later, rfl, rfl, front ▸ isLongest_of_lexeme taken, ?_⟩
      have scan := (ih next).mp others
      rwa [Token.stop, String.length_ofList]
    · rintro ⟨⟨kind, chars, _⟩, later, rfl, rfl, longest, scan⟩
      rw [front] at longest
      obtain ⟨rest', whole, taken'⟩ := lexeme_of_isLongest longest
      cases taken.symm.trans taken'
      rw [(ih next).mpr scan, String.ofList_toList]
      rfl

/-! ## §3 Stuck -/

/-- The text cannot be cut into tokens from the place `start` on: all that is before some character
can, and it is a character that no formula has, or a point that no digit follows and that no numeral
goes on with. -/
def Stuck (start : Nat) (cs : List Char) (e : LexError) : Prop :=
  ∃ before c rest ts, cs = before ++ c :: rest ∧ e = ⟨start + before.length, Text.front c rest⟩ ∧
    tokensFrom start before = .ok ts ∧
    (inAlphabet c = false ∨
      c = '.' ∧ rest.head?.any Char.isDigit = false ∧
        ∀ t ∈ ts, t.kind = .number → t.stop = start + before.length → '.' ∈ t.text.toList)

/-- A word does not go on with a character that no formula has, nor with a point unless it is a
numeral without one. -/
theorem Word.IsProper.ends {w : Word} (proper : w.IsProper) {c : Char}
    (stop : inAlphabet c = false ∨ c = '.' ∧ (w.kind = .number → '.' ∈ w.text.toList)) :
    ¬ (⟨w.kind, w.text.push c⟩ : Word).IsProper := by
  intro longer
  rcases stop with foreign | ⟨rfl, pointed⟩
  · have listed := longer.chars c (by simp)
    rw [foreign] at listed
    cases listed
  · have noDigit : ('.').isDigit = false := by decide
    have noPart : isIdentifierPart '.' = false := by decide
    rcases proper.goesOn longer with ⟨number, goesOn⟩ | ⟨-, part⟩
    · simp [noDigit, pointed number] at goesOn
    · simp [noPart] at part

/-- A numeral without a point goes on with one. -/
theorem Word.IsProper.push_point {w : Word} (proper : w.IsProper) (number : w.kind = .number)
    (whole : '.' ∉ w.text.toList) : (⟨w.kind, w.text.push '.'⟩ : Word).IsProper := by
  obtain ⟨kind, text⟩ := w
  cases number
  obtain ⟨chars, -, d, member, digit⟩ :=
    Decimal.isPlainNumeral_iff.mp (isProper_number_iff.mp proper)
  rw [isProper_number_iff, String.toList_push, Decimal.isPlainNumeral_iff, List.count_append,
    List.count_eq_zero.mpr whole]
  exact ⟨List.forall_mem_append.mpr ⟨chars, by simp [Decimal.IsNumeralChar]⟩, Nat.le_refl 1, d,
    List.mem_append_left _ member, digit⟩

/-- A longest word stays so with another text behind it if that starts like the first one, or with a
character that the word does not go on with. -/
theorem Word.IsLongest.behind {w : Word} {rest rest' : List Char}
    (longest : w.IsLongest (w.text.toList ++ rest))
    (next : ∀ c ∈ rest'.head?, c ∈ rest.head? ∨ ¬ (⟨w.kind, w.text.push c⟩ : Word).IsProper) :
    w.IsLongest (w.text.toList ++ rest') := by
  obtain ⟨proper, ends⟩ := isLongest_iff.mp longest
  exact isLongest_iff.mpr ⟨proper, fun c first => (next c first).elim (ends c) fun stop => stop⟩

theorem tokensFrom_stuck {c : Char} {rest : List Char} (offset : Nat) (noSpace : c ≠ ' ')
    (stuck : lexeme c rest = none) :
    tokensFrom offset (c :: rest) = .error ⟨offset, Text.front c rest⟩ := by
  rw [tokensFrom, if_neg noSpace]
  split
  · rfl
  · next taken =>
    rw [stuck] at taken
    cases taken

/-- What is taken off a text is the longest word at its front. -/
theorem exists_word_of_lexeme {c : Char} {rest : List Char} {l : Lexeme}
    (taken : lexeme c rest = some l) :
    ∃ w : Word, w.kind = l.kind ∧ w.text.toList = l.chars ∧ w.IsLongest (w.text.toList ++ l.rest) ∧
      c :: rest = w.text.toList ++ l.rest := by
  refine ⟨⟨l.kind, String.ofList l.chars⟩, rfl, String.toList_ofList, ?_, ?_⟩
  · rw [String.toList_ofList, lexeme_append taken]
    exact isLongest_of_lexeme taken
  · rw [String.toList_ofList, lexeme_append taken]

/-- Nothing before the first character that starts no word is lost with the text behind it: the
longest words are the same without that text. -/
theorem stuck_of_tokensFrom {cs : List Char} {e : LexError}
    (failed : tokensFrom start cs = .error e) : Stuck start cs e := by
  fun_induction tokensFrom start cs with
  | case1 => cases failed
  | case2 start rest ih =>
    obtain ⟨before, c, after, ts, rfl, rfl, scanned, stop⟩ := ih failed
    refine ⟨' ' :: before, c, after, ts, rfl, ?_, ?_, ?_⟩
    · rw [List.length_cons, Nat.add_assoc, Nat.add_comm 1]
    · rw [tokensFrom, if_pos rfl, scanned]
    · rwa [List.length_cons, Nat.add_comm before.length, ← Nat.add_assoc]
  | case3 start c rest noSpace stuck =>
    cases failed
    refine ⟨[], c, rest, [], rfl, rfl, by rw [tokensFrom], ?_⟩
    have nothing : ∀ t ∈ ([] : List Token), t.kind = .number → t.stop = start + 0 →
        '.' ∈ t.text.toList := by simp
    exact ((lexeme_eq_none_iff noSpace).mp stuck).imp_right fun point =>
      ⟨point.1, point.2, nothing⟩
  | case4 start c rest noSpace l taken ih =>
    obtain ⟨w, -, chars, longest, whole⟩ := exists_word_of_lexeme taken
    cases others : tokensFrom (start + l.chars.length) l.rest with
    | ok later =>
      rw [others] at failed
      cases failed
    | error fault =>
      rw [others] at failed
      cases failed
      obtain ⟨before, d, after, ts, split, rfl, scanned, stop⟩ := ih others
      have length : l.chars.length = w.text.length := by rw [← chars, String.length_toList]
      rw [length] at scanned stop ⊢
      rw [split] at longest whole
      -- The word is the longest one also where the text ends before the character.
      have alone : w.IsLongest (w.text.toList ++ before) := longest.behind fun f first => by
        cases before with
        | nil => simp at first
        | cons g before => exact .inl (by simpa using first)
      refine ⟨w.text.toList ++ before, d, after, ⟨w.kind, w.text, start⟩ :: ts, ?_, ?_, ?_, ?_⟩
      · rw [whole, List.append_assoc]
      · rw [List.length_append, String.length_toList, Nat.add_assoc]
      · rw [tokensFrom_longest alone, scanned]
        rfl
      · rw [List.length_append, String.length_toList, ← Nat.add_assoc]
        refine stop.imp_right fun reached => ?_
        obtain ⟨point, follows, pointed⟩ := reached
        refine ⟨point, follows, List.forall_mem_cons.mpr ⟨fun number last => ?_, pointed⟩⟩
        -- The numeral ends at the point, which it would go on with if it had none.
        have nothing : before = [] := List.eq_nil_of_length_eq_zero (by
          simp only [Token.stop] at last
          omega)
        subst nothing point
        exact Classical.byContradiction fun whole =>
          (isLongest_iff.mp longest).2 '.' rfl (longest.proper.push_point number whole)

theorem tokensFrom_of_stuck {cs : List Char} {e : LexError} (isStuck : Stuck start cs e) :
    tokensFrom start cs = .error e := by
  obtain ⟨before, c, rest, ts, rfl, rfl, scanned, stop⟩ := isStuck
  have noSpace : c ≠ ' ' := by
    rintro rfl
    rcases stop with foreign | ⟨point, -⟩
    · cases foreign
    · cases point
  have stuck : lexeme c rest = none :=
    (lexeme_eq_none_iff noSpace).mpr (stop.imp_right fun point => ⟨point.1, point.2.1⟩)
  fun_induction tokensFrom start before generalizing ts with
  | case1 start => exact tokensFrom_stuck start noSpace stuck
  | case2 start before ih =>
    rw [List.length_cons, Nat.add_comm before.length, ← Nat.add_assoc] at stop ⊢
    rw [List.cons_append, tokensFrom, if_pos rfl]
    exact ih ts scanned stop
  | case3 => cases scanned
  | case4 start d before _ l taken ih =>
    obtain ⟨later, others, rfl⟩ := map_eq_ok scanned
    obtain ⟨w, kind, chars, longest, whole⟩ := exists_word_of_lexeme taken
    have length : l.chars.length = w.text.length := by rw [← chars, String.length_toList]
    have place : start + (d :: before).length = start + w.text.length + l.rest.length := by
      rw [whole, List.length_append, String.length_toList, Nat.add_assoc]
    rw [length] at ih others
    rw [place] at stop ⊢
    have goesOn : w.IsLongest (w.text.toList ++ (l.rest ++ c :: rest)) :=
      longest.behind fun f first => by
        cases behind : l.rest with
        | cons g more => exact .inl (by simpa [behind] using first)
        | nil =>
          have same : c = f := by simpa [behind] using first
          rw [← same]
          refine .inr (longest.proper.ends (stop.imp_right fun reached =>
            ⟨reached.1, fun number => ?_⟩))
          have head := (List.forall_mem_cons.mp reached.2.2).1 (kind.symm.trans number)
          simpa [Token.stop, behind, chars, length] using head
    have failed := ih later others (stop.imp_right fun reached =>
      ⟨reached.1, reached.2.1, (List.forall_mem_cons.mp reached.2.2).2⟩)
    rw [whole, List.append_assoc, tokensFrom_longest goesOn, failed]
    rfl

theorem tokensFrom_eq_error_iff {cs : List Char} {e : LexError} :
    tokensFrom start cs = .error e ↔ Stuck start cs e :=
  ⟨stuck_of_tokensFrom, tokensFrom_of_stuck⟩

/-- A text with tokens has no other characters than those of formulas. -/
theorem inAlphabet_of_tokensFrom {cs : List Char} (scanned : tokensFrom start cs = .ok ts) :
    ∀ c ∈ cs, inAlphabet c := by
  fun_induction tokensFrom start cs generalizing ts with
  | case1 => simp
  | case2 start rest ih => exact List.forall_mem_cons.mpr ⟨rfl, ih scanned⟩
  | case3 => cases scanned
  | case4 start c rest _ l taken ih =>
    obtain ⟨later, others, -⟩ := map_eq_ok scanned
    obtain ⟨w, -, -, longest, whole⟩ := exists_word_of_lexeme taken
    rw [whole]
    exact List.forall_mem_append.mpr ⟨longest.proper.chars, ih others⟩

/-! ## §4 Codes -/

/-- What stands at the front of a text is one code point, its first. -/
theorem codes_front (c : Char) (rest : List Char) :
    ∃ code, Text.codes (Text.front c rest).toList = [code] ∧
      (Text.codes (c :: rest)).head? = some code := by
  unfold Text.front
  by_cases marked : c = Text.mark
  · cases rest with
    | nil => exact ⟨c.toNat, by simp [marked, Text.codes], by simp [Text.codes]⟩
    | cons d rest =>
      exact ⟨Text.markedCode d, by simp [marked, Text.codes], by simp [marked, Text.codes]⟩
  · exact ⟨c.toNat, by simp [marked, Text.codes], by rw [Text.codes_cons marked, List.head?_cons]⟩

/-- Characters of formulas are one code point each. -/
theorem codes_behind {before : List Char} (listed : ∀ c ∈ before, inAlphabet c) (cs : List Char) :
    (Text.codes (before ++ cs))[before.length]? = (Text.codes cs).head? := by
  induction before with
  | nil => exact List.head?_eq_getElem?.symm
  | cons c before ih =>
    obtain ⟨first, others⟩ := List.forall_mem_cons.mp listed
    have unmarked : c ≠ Text.mark := by
      rintro rfl
      exact absurd first (by decide)
    rw [List.cons_append, Text.codes_cons unmarked, List.length_cons, List.getElem?_cons_succ]
    exact ih others

/-! ## §5 Whole -/

/-- **Scanning, exactly.** A text has the tokens that make up a scan of it, and no others. It has
none at a place up to which it has tokens and at which a character stands that no formula has, or a
point that no digit follows and that no numeral before it goes on with. The error tells the place,
also counted in code points, and what stands there. A character that no formula has is always
refused. -/
theorem tokens_exact (expression : String) :
    (∀ ts, tokens expression = .ok ts ↔ IsScan expression.toList 0 ts) ∧
    (∀ e, tokens expression = .error e ↔
      ∃ before c rest ts, expression.toList = before ++ c :: rest ∧
        e = ⟨before.length, Text.front c rest⟩ ∧ tokens (String.ofList before) = .ok ts ∧
        (inAlphabet c = false ∨
          c = '.' ∧ rest.head?.any Char.isDigit = false ∧
            ∀ t ∈ ts, t.kind = .number → t.stop = before.length → '.' ∈ t.text.toList)) ∧
    (∀ e, tokens expression = .error e →
      ∃ code, Text.codes e.text.toList = [code] ∧
        (Text.codes expression.toList)[e.offset]? = some code) ∧
    ((∃ c ∈ expression.toList, inAlphabet c = false) → ∃ e, tokens expression = .error e) := by
  have errors (e : LexError) : tokens expression = .error e ↔ Stuck 0 expression.toList e :=
    tokensFrom_eq_error_iff
  refine ⟨fun ts => tokensFrom_eq_ok_iff List.drop_zero, fun e => ?_, fun e failed => ?_, ?_⟩
  · rw [errors]
    simp only [Stuck, tokens, String.toList_ofList, Nat.zero_add]
  · obtain ⟨before, c, rest, ts, whole, rfl, scanned, -⟩ := (errors e).mp failed
    obtain ⟨code, single, first⟩ := codes_front c rest
    refine ⟨code, single, ?_⟩
    rw [whole, Nat.zero_add, codes_behind (inAlphabet_of_tokensFrom scanned), first]
  · rintro ⟨c, member, foreign⟩
    cases scanned : tokens expression with
    | error e => exact ⟨e, rfl⟩
    | ok ts =>
      have listed := inAlphabet_of_tokensFrom scanned c member
      rw [foreign] at listed
      cases listed

end BusinessCase.Formula
