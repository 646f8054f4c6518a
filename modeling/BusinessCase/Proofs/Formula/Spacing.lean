/-
BusinessCase.Proofs.Formula.Spacing — spaces between tokens.

A space ends a token, and no token looks past it. So a text with a space in it
has the tokens of what is before the space and of what is behind it, and the
error of the first of the two that has one. Further spaces between the tokens
of a text put its tokens elsewhere and change nothing else.

  §1 Places — a text that starts elsewhere: `tokensFrom_moved`.
  §2 Joints — a text before a space: `tokensFrom_joint`, `tokensFrom_before`.
  §3 Gaps   — `spread`, spaces anywhere between tokens: `tokensFrom_spread`.
  §4 Sizes  — the code points of a text that has tokens.
  §5 Whole  — `tokens_joined`.
-/
import BusinessCase.Error
import BusinessCase.Proofs.Formula.Layout
import BusinessCase.Proofs.Formula.Moved
import BusinessCase.Proofs.Formula.Reading
import BusinessCase.Proofs.Formula.Scan
import BusinessCase.Proofs.Text.Spelling

namespace BusinessCase.Formula

variable {start : Nat} {ts : List Token}

/-! ## §1 Places -/

/-- The same character at another place. -/
def LexError.moved (move : Nat → Nat) (e : LexError) : LexError := { e with offset := move e.offset }

/-- The tokens or the error of a text that starts elsewhere. -/
def movedScan (move : Nat → Nat) : Except LexError (List Token) → Except LexError (List Token)
  | .error e => .error (e.moved move)
  | .ok ts => .ok (ts.map (·.moved move))

theorem movedScan_cons (move : Nat → Nat) (t : Token) (x : Except LexError (List Token)) :
    movedScan move (x.map (t :: ·)) = (movedScan move x).map (t.moved move :: ·) := by
  cases x <;> simp [Except.map, movedScan]

/-- A text has the same tokens wherever it starts. -/
theorem tokensFrom_moved (k start : Nat) (cs : List Char) :
    tokensFrom (k + start) cs = movedScan (k + ·) (tokensFrom start cs) := by
  fun_induction tokensFrom start cs with
  | case1 start => simp [tokensFrom, movedScan]
  | case2 start rest ih => rw [tokensFrom, if_pos rfl, Nat.add_assoc, ih]
  | case3 start c rest noSpace stuck =>
    rw [tokensFrom_stuck (k + start) noSpace stuck]
    rfl
  | case4 start c rest noSpace l taken ih =>
    rw [tokensFrom_cons (k + start) noSpace taken, Nat.add_assoc, ih, movedScan_cons]
    rfl

/-! ## §2 Joints -/

/-- No word goes on with a space. -/
theorem Word.IsProper.not_push_space {w : Word} (proper : w.IsProper) :
    ¬ (⟨w.kind, w.text.push ' '⟩ : Word).IsProper := by
  intro longer
  have noDigit : (' ').isDigit = false := by decide
  have noPart : isIdentifierPart ' ' = false := by decide
  have goesOn := proper.goesOn longer
  simp [noDigit, noPart] at goesOn

/-- **The tokens before a space are those of the text before it**, and scanning goes on behind. -/
theorem tokensFrom_joint {cs : List Char} (scanned : tokensFrom start cs = .ok ts)
    (ds : List Char) :
    tokensFrom start (cs ++ ' ' :: ds) =
      (tokensFrom (start + cs.length + 1) ds).map (ts ++ ·) := by
  fun_induction tokensFrom start cs generalizing ts with
  | case1 start =>
    cases scanned
    rw [List.nil_append, tokensFrom, if_pos rfl]
    cases tokensFrom (start + 1) ds <;> rfl
  | case2 start rest ih =>
    rw [List.cons_append, tokensFrom, if_pos rfl, ih scanned, List.length_cons]
    congr 2
    omega
  | case3 => cases scanned
  | case4 start c rest _ l taken ih =>
    obtain ⟨later, others, rfl⟩ := map_eq_ok scanned
    obtain ⟨w, kind, chars, longest, whole⟩ := exists_word_of_lexeme taken
    have length : l.chars.length = w.text.length := by rw [← chars, String.length_toList]
    have goesOn : w.IsLongest (w.text.toList ++ (l.rest ++ ' ' :: ds)) :=
      longest.behind fun d first => by
        cases behind : l.rest with
        | cons e more => exact .inl (by simpa [behind] using first)
        | nil =>
          obtain rfl : ' ' = d := by simpa [behind] using first
          exact .inr longest.proper.not_push_space
    have place : start + (c :: rest).length = start + l.chars.length + l.rest.length := by
      rw [whole, List.length_append, chars, Nat.add_assoc]
    have text : String.ofList l.chars = w.text := by rw [← chars, String.ofList_toList]
    rw [place, whole, List.append_assoc, tokensFrom_longest goesOn, ← length, ih others, kind, text]
    cases tokensFrom (start + l.chars.length + l.rest.length + 1) ds <;> rfl

/-- What stands at the front of a text stays there when the text goes on, unless the text breaks off
behind a mark. -/
theorem front_append {c : Char} {rest : List Char} (whole : c = Text.mark → rest ≠ [])
    (ds : List Char) : Text.front c (rest ++ ds) = Text.front c rest := by
  unfold Text.front
  by_cases marked : c = Text.mark
  · obtain ⟨d, rest, rfl⟩ := List.exists_cons_of_ne_nil (whole marked)
    simp [marked]
  · simp [marked]

theorem mark_not_inAlphabet : inAlphabet Text.mark = false := by decide

/-- **An error before a space is that of the text before it.** -/
theorem tokensFrom_before {a : String} (spelled : IsSpelled a) {e : LexError}
    (failed : tokensFrom start a.toList = .error e) (ds : List Char) :
    tokensFrom start (a.toList ++ ' ' :: ds) = .error e := by
  obtain ⟨before, c, rest, ts, whole, rfl, scanned, stop⟩ := tokensFrom_eq_error_iff.mp failed
  have unmarked : Text.mark ∉ before := fun member => by
    have listed := inAlphabet_of_tokensFrom scanned _ member
    rw [mark_not_inAlphabet] at listed
    cases listed
  have front : Text.front c (rest ++ ' ' :: ds) = Text.front c rest :=
    front_append (fun marked => spelled.behind_mark (marked ▸ whole) unmarked) _
  refine tokensFrom_eq_error_iff.mpr
    ⟨before, c, rest ++ ' ' :: ds, ts, by simp [whole], by rw [front], scanned,
      stop.imp_right fun point => ⟨point.1, ?_, point.2.2⟩⟩
  cases rest with
  | nil => rfl
  | cons d rest => simpa using point.2.1

/-! ## §3 Gaps -/

/-- How many spaces come before the first `n` places. -/
def gapsBefore (gaps : Nat → Nat) : Nat → Nat
  | 0 => 0
  | n + 1 => gapsBefore gaps n + gaps n

theorem gapsBefore_succ (gaps : Nat → Nat) (n : Nat) :
    gapsBefore gaps (n + 1) = gapsBefore gaps n + gaps n := rfl

theorem gapsBefore_tight {gaps : Nat → Nat} {n m : Nat}
    (tight : ∀ place, n ≤ place → place < n + m → gaps place = 0) :
    gapsBefore gaps (n + m) = gapsBefore gaps n := by
  induction m with
  | zero => rfl
  | succ m ih =>
    have last : gaps (n + m) = 0 := tight (n + m) (by omega) (by omega)
    rw [← Nat.add_assoc, gapsBefore_succ, last, Nat.add_zero,
      ih fun place above below => tight place above (by omega)]

/-- Where a place goes when that many spaces are put before it and each place that precedes it. -/
def placeBehind (gaps : Nat → Nat) (place : Nat) : Nat := place + gapsBefore gaps (place + 1)

/-- The text with further spaces: so many before the character at a place as the gap of that place,
and as many as the next gap behind them all. -/
def spread (gaps : Nat → Nat) (start : Nat) : List Char → List Char
  | [] => List.replicate (gaps start) ' '
  | c :: rest => List.replicate (gaps start) ' ' ++ c :: spread gaps (start + 1) rest

/-- No space is put inside a token. -/
def SparesTokens (gaps : Nat → Nat) (ts : List Token) : Prop :=
  ∀ t ∈ ts, ∀ place, t.offset < place → place < t.stop → gaps place = 0

variable {gaps : Nat → Nat}

/-- Characters that no space is put between stay together. -/
theorem spread_append {cs : List Char}
    (tight : ∀ place, start ≤ place → place < start + cs.length → gaps place = 0)
    (ds : List Char) : spread gaps start (cs ++ ds) = cs ++ spread gaps (start + cs.length) ds := by
  induction cs generalizing start with
  | nil => simp
  | cons c cs ih =>
    have first : gaps start = 0 := tight start (Nat.le_refl start) (by simp)
    have others := @ih (start + 1) fun place from_start below =>
      tight place (by omega) (by simp only [List.length_cons]; omega)
    rw [List.cons_append, spread, first, others, List.length_cons, Nat.add_right_comm start 1]
    rfl

/-- The characters of a word stay together behind the spaces that are put before it. -/
theorem spread_word {cs : List Char} (some_char : cs ≠ [])
    (tight : ∀ place, start < place → place < start + cs.length → gaps place = 0)
    (ds : List Char) :
    spread gaps start (cs ++ ds) =
      List.replicate (gaps start) ' ' ++ (cs ++ spread gaps (start + cs.length) ds) := by
  obtain ⟨c, cs, rfl⟩ := List.exists_cons_of_ne_nil some_char
  have others : spread gaps (start + 1) (cs ++ ds) = cs ++ spread gaps (start + 1 + cs.length) ds :=
    spread_append (fun place from_start below =>
      tight place (by omega) (by simp only [List.length_cons]; omega)) ds
  rw [List.cons_append, spread, others, List.length_cons, Nat.add_right_comm start 1]
  rfl

/-- A text with further spaces starts like the text, or with a space. -/
theorem head?_spread (cs : List Char) :
    ∀ c ∈ (spread gaps start cs).head?, c ∈ cs.head? ∨ c = ' ' := by
  intro c first
  cases count : gaps start with
  | zero =>
    cases cs with
    | nil => simp [spread, count] at first
    | cons d rest => exact .inl (by simpa [spread, count] using first)
  | succ count =>
    refine .inr ?_
    cases cs <;> simpa [spread, count, List.replicate_succ, eq_comm] using first

/-- **Spaces that are put between tokens move the tokens** and do nothing else. -/
theorem tokensFrom_spread {cs : List Char} (scanned : tokensFrom start cs = .ok ts)
    (spared : SparesTokens gaps ts) :
    tokensFrom (start + gapsBefore gaps start) (spread gaps start cs) =
      .ok (ts.map (·.moved (placeBehind gaps))) := by
  fun_induction tokensFrom start cs generalizing ts with
  | case1 start =>
    cases scanned
    have blank := tokensFrom_spaces (gaps start) (start + gapsBefore gaps start) []
    rw [List.append_nil, tokensFrom] at blank
    exact blank
  | case2 start rest ih =>
    have next : start + gapsBefore gaps start + gaps start + 1 =
        start + 1 + gapsBefore gaps (start + 1) := by
      rw [gapsBefore_succ]
      omega
    rw [spread, tokensFrom_spaces, tokensFrom, if_pos rfl, next]
    exact ih scanned spared
  | case3 => cases scanned
  | case4 start c rest _ l taken ih =>
    obtain ⟨later, others, rfl⟩ := map_eq_ok scanned
    obtain ⟨inside, behind⟩ := List.forall_mem_cons.mp spared
    obtain ⟨w, kind, chars, longest, whole⟩ := exists_word_of_lexeme taken
    have length : l.chars.length = w.text.length := by rw [← chars, String.length_toList]
    have text : String.ofList l.chars = w.text := by rw [← chars, String.ofList_toList]
    rw [length] at ih others
    have some_char : 0 < w.text.length := longest.proper.length_pos
    have tight (place : Nat) (above : start < place) (below : place < start + w.text.length) :
        gaps place = 0 := inside place above (by rwa [Token.stop, text])
    have split : spread gaps start (w.text.toList ++ l.rest) = List.replicate (gaps start) ' ' ++
        (w.text.toList ++ spread gaps (start + w.text.length) l.rest) := by
      have word := spread_word longest.proper.ne_nil
        (by rwa [String.length_toList]) l.rest
      rwa [String.length_toList] at word
    have goesOn : w.IsLongest (w.text.toList ++ spread gaps (start + w.text.length) l.rest) :=
      longest.behind fun d first => (head?_spread l.rest d first).imp_right fun space => by
        rw [space]
        exact longest.proper.not_push_space
    -- No space is put inside the word, so those before its end are those up to its start.
    have same : gapsBefore gaps (start + w.text.length) = gapsBefore gaps (start + 1) := by
      have run : gapsBefore gaps (start + 1 + (w.text.length - 1)) = gapsBefore gaps (start + 1) :=
        gapsBefore_tight fun place above below => tight place (by omega) (by omega)
      rwa [show start + 1 + (w.text.length - 1) = start + w.text.length by omega] at run
    have behind_word : start + gapsBefore gaps start + gaps start + w.text.length =
        start + w.text.length + gapsBefore gaps (start + w.text.length) := by
      rw [same, gapsBefore_succ]
      omega
    have place : start + gapsBefore gaps start + gaps start = placeBehind gaps start := by
      rw [placeBehind, gapsBefore_succ]
      omega
    rw [whole, split, tokensFrom_spaces, tokensFrom_longest goesOn, behind_word, ih others behind,
      place, kind, ← text]
    rfl

/-- The text with further spaces. -/
def spaced (gaps : Nat → Nat) (expression : String) : String :=
  String.ofList (spread gaps 0 expression.toList)

theorem length_spread (gaps : Nat → Nat) (start : Nat) (cs : List Char) :
    start + gapsBefore gaps start + (spread gaps start cs).length =
      placeBehind gaps (start + cs.length) := by
  induction cs generalizing start with
  | nil =>
    simp only [spread, List.length_replicate, List.length_nil, placeBehind, gapsBefore_succ]
    omega
  | cons c rest ih =>
    have others := ih (start + 1)
    rw [gapsBefore_succ] at others
    simp only [spread, List.length_append, List.length_replicate, List.length_cons]
    rw [Nat.add_comm rest.length, ← Nat.add_assoc start 1, ← others]
    omega

theorem length_spaced (gaps : Nat → Nat) (expression : String) :
    (spaced gaps expression).length = placeBehind gaps expression.length := by
  have whole := length_spread gaps 0 expression.toList
  rw [String.length_toList] at whole
  simpa [spaced, gapsBefore] using whole

theorem tokens_spaced {expression : String} (scanned : tokens expression = .ok ts)
    (spared : SparesTokens gaps ts) :
    tokens (spaced gaps expression) = .ok (ts.map (·.moved (placeBehind gaps))) := by
  have whole := tokensFrom_spread scanned spared
  simpa [tokens, spaced, gapsBefore] using whole

/-! ## §4 Sizes -/

/-- The characters of formulas are their own code points. -/
theorem codes_of_inAlphabet {cs : List Char} (listed : ∀ c ∈ cs, inAlphabet c) :
    Text.codes cs = cs.map Char.toNat := by
  induction cs with
  | nil => rfl
  | cons c cs ih =>
    obtain ⟨first, others⟩ := List.forall_mem_cons.mp listed
    have unmarked : c ≠ Text.mark := by
      rintro rfl
      exact absurd first (by decide)
    rw [Text.codes_cons unmarked, ih others, List.map_cons]

/-- A text with tokens has as many code points as characters. -/
theorem size_of_tokens {expression : String} (scanned : tokens expression = .ok ts) :
    Text.size expression = expression.length := by
  rw [Text.size, codes_of_inAlphabet (inAlphabet_of_tokensFrom scanned), List.length_map,
    String.length_toList]

theorem size_spaced {expression : String} (scanned : tokens expression = .ok ts)
    (spared : SparesTokens gaps ts) :
    Text.size (spaced gaps expression) = placeBehind gaps (Text.size expression) := by
  rw [size_of_tokens (tokens_spaced scanned spared), size_of_tokens scanned, length_spaced]

/-! ## §5 Whole -/

variable {limits : Limits} {expression : String}

/-- A text that is not too long is read as its tokens are. -/
theorem read_of_tokens (scanned : tokens expression = .ok ts)
    (short : exceeds (Text.size expression) limits.expressionLength = false) :
    read limits expression = (parse limits expression.length ts).mapError .parse := by
  simp only [read, short, scanned, Bool.false_eq_true, if_false]
  cases parse limits expression.length ts <;> rfl

/-- A text has a tree where its tokens have one, and the stack has room for reading them. -/
theorem treeOf_eq_ok_iff (scanned : tokens expression = .ok ts)
    (short : exceeds (Text.size expression) limits.expressionLength = false) (e : Expr Float) :
    treeOf limits expression = .ok e ↔
      limits.expressionLength.isComparable ∧ parseStop? limits expression.length ts = none ∧
        parse limits expression.length ts = .ok e := by
  rw [treeOf, readStop?, read_of_tokens scanned short, short, scanned]
  cases limits.expressionLength.isComparable with
  | false => simp
  | true =>
    cases stopped : parseStop? limits expression.length ts with
    | some stop => simp [stopped]
    | none => cases parse limits expression.length ts <;> simp [stopped, Except.mapError]

/-- Spaces between tokens leave a text the tree it has, unless they make it too long. -/
theorem treeOf_spaced (scanned : tokens expression = .ok ts) (spared : SparesTokens gaps ts)
    (short : exceeds (Text.size (spaced gaps expression)) limits.expressionLength = false)
    (e : Expr Float) :
    treeOf limits (spaced gaps expression) = .ok e ↔ treeOf limits expression = .ok e := by
  have shorter : Text.size expression ≤ Text.size (spaced gaps expression) := by
    rw [size_spaced scanned spared, placeBehind]
    omega
  have parsed : parse limits (placeBehind gaps expression.length)
      (ts.map (·.moved (placeBehind gaps))) = .ok e ↔ parse limits expression.length ts = .ok e := by
    rw [parse_moved]
    cases parse limits expression.length ts <;> simp [Except.mapError]
  rw [treeOf_eq_ok_iff (tokens_spaced scanned spared) short,
    treeOf_eq_ok_iff scanned (exceeds_mono shorter _ short), length_spaced, parseStop?_moved, parsed]

/-- **A space between two texts keeps their tokens apart.** The error of the first one is the error
of the whole, else that of the second one, behind the first and the space; else the whole has the
tokens of both. Spaces anywhere between the tokens of a text put its tokens elsewhere; the tokens
have the same tree then, or the same error at the place to which its token has moved. -/
theorem tokens_joined (a b : String) (spelled : IsSpelled a) :
    (∀ e, tokens a = .error e → tokens (a ++ " " ++ b) = .error e) ∧
    (∀ ts e, tokens a = .ok ts → tokens b = .error e →
      tokens (a ++ " " ++ b) = .error ⟨Text.size a + 1 + e.offset, e.text⟩) ∧
    (∀ ts us, tokens a = .ok ts → tokens b = .ok us →
      tokens (a ++ " " ++ b) = .ok (ts ++ us.map (·.moved (Text.size a + 1 + ·)))) ∧
    ∀ expression ts gaps, tokens expression = .ok ts → SparesTokens gaps ts →
      tokens (spaced gaps expression) = .ok (ts.map (·.moved (placeBehind gaps))) ∧
      ∀ limits : Limits,
        parse limits (Text.size (spaced gaps expression)) (ts.map (·.moved (placeBehind gaps))) =
          (parse limits (Text.size expression) ts).mapError (·.moved (placeBehind gaps)) ∧
        (exceeds (Text.size (spaced gaps expression)) limits.expressionLength = false →
          ∀ e, treeOf limits (spaced gaps expression) = .ok e ↔ treeOf limits expression = .ok e) := by
  have chars : (a ++ " " ++ b).toList = a.toList ++ ' ' :: b.toList := by simp
  have joint (ts : List Token) (scanned : tokens a = .ok ts) : tokens (a ++ " " ++ b) =
      (movedScan (Text.size a + 1 + ·) (tokens b)).map (ts ++ ·) := by
    have moved := tokensFrom_moved (Text.size a + 1) 0 b.toList
    rw [tokens, chars, tokensFrom_joint scanned, String.length_toList, Nat.zero_add,
      ← size_of_tokens scanned, tokens, ← moved, Nat.add_zero]
  refine ⟨fun e failed => ?_, fun ts e scanned failed => ?_, fun ts us scanned behind => ?_,
    fun expression ts gaps scanned spared => ⟨tokens_spaced scanned spared, fun limits =>
      ⟨?_, fun short e => treeOf_spaced scanned spared short e⟩⟩⟩
  · rw [tokens, chars]
    exact tokensFrom_before spelled failed b.toList
  · rw [joint ts scanned, failed]
    rfl
  · rw [joint ts scanned, behind]
    rfl
  · rw [size_spaced scanned spared, parse_moved]

/-- The theorem at two numerals with a point each, which would be another text without the space,
and at the first of them between two spaces. -/
theorem tokens_joined_points :
    tokens "1. .5" = .ok [⟨.number, "1.", 0⟩, ⟨.number, ".5", 3⟩] ∧
      tokens " 1. " = .ok [⟨.number, "1.", 1⟩] ∧
      ∀ e, treeOf {} " 1. " = .ok e ↔ treeOf {} "1." = .ok e := by
  have spelled : IsSpelled "1." := ⟨[49, 46], by decide, by decide⟩
  have first : tokens "1." = .ok [⟨.number, "1.", 0⟩] := by
    simp [tokens, tokensFrom, lexeme, singleKind?, isOperatorSign, startsNumeral, splitNumeral,
      Except.map]
  have second : tokens ".5" = .ok [⟨.number, ".5", 0⟩] := by
    simp [tokens, tokensFrom, lexeme, singleKind?, isOperatorSign, startsNumeral, splitNumeral,
      Except.map]
  let gaps : Nat → Nat := fun place => if place = 0 ∨ place = 2 then 1 else 0
  have spared : SparesTokens gaps [⟨.number, "1.", 0⟩] := by
    intro t member place above below
    obtain rfl := List.mem_singleton.mp member
    have stop : (⟨.number, "1.", 0⟩ : Token).stop = 2 := rfl
    obtain rfl : place = 1 := by
      rw [stop] at below
      dsimp only at above
      omega
    rfl
  obtain ⟨-, -, both, spaces⟩ := tokens_joined "1." ".5" spelled
  obtain ⟨around, trees⟩ := spaces "1." _ gaps first spared
  have text : spaced gaps "1." = " 1. " := rfl
  rw [text] at around trees
  exact ⟨both _ _ first second, around, (trees {}).2 rfl⟩

end BusinessCase.Formula
