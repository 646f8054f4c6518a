/-
BusinessCase.Proofs.Formula.Layout — words with any number of spaces between them.

Words that are written one after the other, with any number of spaces before
each and behind the last, are scanned into just these words, if of any two
neighbours one is a character that is a token by itself: else a name or a
numeral could run on into the next.

  §1 Words  — `Apart`.
  §2 Ends   — `Breaks`, what a name or a numeral does not run on into.
  §3 Scans  — one word off the front: `tokensFrom_word`.
  §4 Layout — `layout`, and `tokensFrom_layout`.
-/
import BusinessCase.Proofs.Formula.Words
import Mathlib.Data.List.Chain

namespace BusinessCase.Formula

/-! ## §1 Words -/

/-- Is the word one character that is a token by itself? -/
def Word.isSingle (w : Word) : Bool := w.kind ≠ .number && w.kind ≠ .identifier

/-- Two words do not run into each other. -/
def Apart (first second : Word) : Prop := first.isSingle ∨ second.isSingle

/-! ## §2 Ends -/

/-- The text is at its end, or goes on with a space or a character that is a token by itself. -/
def Breaks (rest : List Char) : Prop :=
  ∀ c ∈ rest.head?, c = ' ' ∨ (singleKind? c).isSome

theorem breaks_space (rest : List Char) : Breaks (' ' :: rest) := by
  intro c first
  have same : ' ' = c := by simpa using first
  exact .inl same.symm

theorem breaks_single {c : Char} {kind : TokenKind} (alone : singleKind? c = some kind)
    (rest : List Char) : Breaks (c :: rest) := by
  intro d first
  have same : c = d := by simpa using first
  rw [← same, alone]
  exact .inr rfl

/-- Nothing runs on into such a text. -/
theorem Breaks.cons {c : Char} {rest : List Char} (breaks : Breaks (c :: rest)) :
    c.isDigit = false ∧ c ≠ '.' ∧ isIdentifierPart c = false := by
  have ends : c = ' ' ∨ c = '(' ∨ c = ')' ∨ c = ',' ∨ c = '+' ∨ c = '-' ∨ c = '*' ∨ c = '/' := by
    rcases breaks c (by simp) with space | alone
    · exact .inl space
    · obtain ⟨kind, alone⟩ := Option.isSome_iff_exists.mp alone
      exact .inr (singleKind?_isSome alone)
  rcases ends with rfl | rfl | rfl | rfl | rfl | rfl | rfl | rfl <;> decide

/-! ## §3 Scans -/

/-- A word does not go on where the text breaks. -/
theorem isLongest_of_breaks {w : Word} (proper : w.IsProper) {rest : List Char}
    (apart : w.isSingle ∨ Breaks rest) : w.IsLongest (w.text.toList ++ rest) := by
  refine isLongest_iff.mpr ⟨proper, fun c next longer => ?_⟩
  have goesOn := proper.goesOn longer
  rcases apart with single | breaks
  · have alone : w.kind ≠ .number ∧ w.kind ≠ .identifier := by
      simpa [Word.isSingle] using single
    simp [alone] at goesOn
  · obtain ⟨later, rfl⟩ := List.head?_eq_some_iff.mp next
    obtain ⟨digit, point, part⟩ := breaks.cons
    simp [digit, point, part] at goesOn

/-- **A word is taken off the front** of a text that it does not run on into. -/
theorem tokensFrom_word {w : Word} (proper : w.IsProper) {rest : List Char}
    (apart : w.isSingle ∨ Breaks rest) (offset : Nat) :
    tokensFrom offset (w.text.toList ++ rest) =
      (tokensFrom (offset + w.text.length) rest).map (⟨w.kind, w.text, offset⟩ :: ·) :=
  tokensFrom_longest (isLongest_of_breaks proper apart) offset

/-! ## §4 Layout -/

/-- The words with spaces: as many as the gap of a number before the word of that number, and as
many as the next gap behind them all. -/
def layout (gap : Nat → Nat) (i : Nat) : List Word → List Char
  | [] => List.replicate (gap i) ' '
  | w :: rest => List.replicate (gap i) ' ' ++ (w.text.toList ++ layout gap (i + 1) rest)

/-- Spaces are skipped. -/
theorem tokensFrom_spaces (count offset : Nat) (cs : List Char) :
    tokensFrom offset (List.replicate count ' ' ++ cs) = tokensFrom (offset + count) cs := by
  induction count generalizing offset with
  | zero => rfl
  | succ count ih =>
    rw [List.replicate_succ, List.cons_append, tokensFrom, if_pos rfl, ih, Nat.add_right_comm]
    rfl

/-- Words that start with a single character stop what is before them. -/
theorem breaks_layout {ws : List Word} (proper : ∀ w ∈ ws, w.IsProper)
    (single : ∀ w ∈ ws.head?, w.isSingle) (gap : Nat → Nat) (i : Nat) :
    Breaks (layout gap i ws) := by
  cases count : gap i with
  | succ count =>
    cases ws <;> simp [layout, count, List.replicate_succ, breaks_space]
  | zero =>
    cases ws with
    | nil => simp [layout, count, Breaks]
    | cons w rest =>
      have alone : w.isSingle := single w (by simp)
      have isWord := proper w List.mem_cons_self
      cases isWord with
      | number => simp [Word.isSingle] at alone
      | name => simp [Word.isSingle] at alone
      | single kind =>
        simp [layout, count]
        exact breaks_single kind _

/-- **Words that do not run into each other are scanned into themselves**, whatever the spaces
between them. -/
theorem tokensFrom_layout {ws : List Word} (proper : ∀ w ∈ ws, w.IsProper)
    (apart : ws.IsChain Apart) (gap : Nat → Nat) (i offset : Nat) :
    ∃ ts, tokensFrom offset (layout gap i ws) = .ok ts ∧ ts.map Token.word = ws := by
  induction ws generalizing i offset with
  | nil =>
    have blank := tokensFrom_spaces (gap i) offset []
    rw [List.append_nil, tokensFrom] at blank
    exact ⟨[], blank, rfl⟩
  | cons w rest ih =>
    obtain ⟨isWord, others⟩ := List.forall_mem_cons.mp proper
    obtain ⟨first, apart⟩ := List.isChain_cons.mp apart
    have ends : w.isSingle ∨ Breaks (layout gap (i + 1) rest) := by
      cases alone : w.isSingle with
      | true => exact .inl rfl
      | false =>
        refine .inr (breaks_layout others (fun next member => ?_) gap (i + 1))
        have neighbours : Apart w next := first next member
        simpa [Apart, alone] using neighbours
    obtain ⟨ts, scanned, words⟩ := ih others apart (i + 1)
      (offset + gap i + w.text.length)
    refine ⟨⟨w.kind, w.text, offset + gap i⟩ :: ts, ?_, ?_⟩
    · rw [layout, tokensFrom_spaces, tokensFrom_word isWord ends, scanned]
      rfl
    · rw [List.map_cons, words]
      rfl

end BusinessCase.Formula
