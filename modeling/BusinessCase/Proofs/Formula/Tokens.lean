/-
BusinessCase.Proofs.Formula.Tokens — what the tokens of a formula can be.

`Emitted` holds of the kinds and texts that scanning gives; a number token has
the text of a plain numeral, and an operator token is one of the four signs.
-/
import BusinessCase.Formula.Token
import BusinessCase.Proofs.Decimal.Numeral

namespace BusinessCase.Formula

/-- Scanning can give a token of this kind and text. -/
def Token.Emitted (t : Token) : Prop :=
  ∃ c rest l, lexeme c rest = some l ∧ t.kind = l.kind ∧ t.text = String.ofList l.chars

/-- A token is taken off the front, and scanning goes on behind it. -/
theorem tokensFrom_cons {c : Char} {rest : List Char} {l : Lexeme} (offset : Nat) (noSpace : c ≠ ' ')
    (taken : lexeme c rest = some l) :
    tokensFrom offset (c :: rest) = (tokensFrom (offset + l.chars.length) l.rest).map
      (⟨l.kind, String.ofList l.chars, offset⟩ :: ·) := by
  rw [tokensFrom, if_neg noSpace]
  split
  · next stuck =>
    rw [stuck] at taken
    cases taken
  · next found =>
    rw [found] at taken
    cases taken
    rfl

/-- Every token of a text is one that scanning can give. -/
theorem emitted_of_mem_tokensFrom {offset : Nat} {cs : List Char} {ts : List Token}
    (h : tokensFrom offset cs = .ok ts) : ∀ t ∈ ts, t.Emitted := by
  fun_induction tokensFrom offset cs generalizing ts with
  | case1 offset =>
    cases h
    simp
  | case2 offset rest ih => exact ih h
  | case3 offset c rest _ stuck => cases h
  | case4 offset c rest _ l taken ih =>
    cases more : tokensFrom (offset + l.chars.length) l.rest with
    | error e =>
      rw [more] at h
      cases h
    | ok later =>
      rw [more] at h
      cases h
      intro t member
      rcases List.mem_cons.mp member with rfl | member
      · exact ⟨c, rest, l, taken, rfl, rfl⟩
      · exact ih more t member

theorem emitted_of_mem_tokens {expression : String} {ts : List Token}
    (h : tokens expression = .ok ts) : ∀ t ∈ ts, t.Emitted :=
  emitted_of_mem_tokensFrom h

/-! ## Numbers -/

/-- What is split off is digits and points, and no more points than are allowed. -/
theorem splitNumeral_numeral (pointSeen : Bool) (cs : List Char) :
    (∀ c ∈ (splitNumeral pointSeen cs).1, Decimal.IsNumeralChar c) ∧
      (splitNumeral pointSeen cs).1.count '.' + (if pointSeen then 1 else 0) ≤ 1 := by
  induction cs generalizing pointSeen with
  | nil => cases pointSeen <;> simp [splitNumeral]
  | cons c rest ih =>
    rw [splitNumeral]
    split
    · next digit =>
      have other : c ≠ '.' := by
        rintro rfl
        exact absurd digit (by decide)
      obtain ⟨chars, points⟩ := ih pointSeen
      exact ⟨List.forall_mem_cons.mpr ⟨.inl digit, chars⟩, by simpa [other] using points⟩
    · split
      · next point =>
        obtain ⟨rfl, rfl⟩ : c = '.' ∧ pointSeen = false := by simpa using point
        obtain ⟨chars, points⟩ := ih true
        exact ⟨List.forall_mem_cons.mpr ⟨.inr rfl, chars⟩, by simpa using points⟩
      · cases pointSeen <;> simp

/-- The characters of a number token are a plain numeral. -/
theorem isPlainNumeral_of_startsNumeral {c : Char} {rest : List Char}
    (h : startsNumeral c rest = true) :
    Decimal.IsPlainNumeral (c :: (splitNumeral (c = '.') rest).1) := by
  obtain ⟨chars, points⟩ := splitNumeral_numeral (c = '.') rest
  have starts : c.isDigit ∨ c = '.' ∧ rest.head?.any Char.isDigit := by
    simpa [startsNumeral] using h
  refine Decimal.isPlainNumeral_iff.mpr ⟨List.forall_mem_cons.mpr ⟨?_, chars⟩, ?_, ?_⟩
  · exact starts.imp (fun digit => digit) And.left
  · simpa [List.count_cons] using points
  · rcases starts with digit | ⟨-, follows⟩
    · exact ⟨c, List.mem_cons_self, digit⟩
    · cases rest with
      | nil => simp at follows
      | cons d rest =>
        have digit : d.isDigit := by simpa using follows
        exact ⟨d, by simp [splitNumeral, digit], digit⟩

/-- The kind of a character that is a token by itself, and the character. -/
theorem singleKind?_eq_some {c : Char} {kind : TokenKind} (h : singleKind? c = some kind) :
    kind ≠ .number ∧ kind ≠ .identifier ∧
      (kind = .operator → c = '+' ∨ c = '-' ∨ c = '*' ∨ c = '/') := by
  unfold singleKind? at h
  split at h
  · cases h; simp
  · split at h
    · cases h; simp
    · split at h
      · cases h; simp
      · split at h
        · next sign =>
          cases h
          simpa [isOperatorSign, or_assoc] using sign
        · cases h

/-- **The text of a number token is read as a double.** -/
theorem Token.Emitted.exists_number {t : Token} (h : t.Emitted) (kind : t.kind = .number) :
    ∃ x, Decimal.readFloat? t.text = some x := by
  obtain ⟨c, rest, l, taken, sameKind, sameText⟩ := h
  rw [kind] at sameKind
  rw [sameText]
  unfold lexeme at taken
  split at taken
  · next single =>
    cases taken
    exact absurd sameKind.symm (singleKind?_eq_some single).1
  · split at taken
    · next starts =>
      cases taken
      exact Decimal.exists_readFloat (isPlainNumeral_of_startsNumeral starts)
    · split at taken <;> cases taken
      cases sameKind

/-- **An operator token is one of the four signs.** -/
theorem Token.Emitted.operator_text {t : Token} (h : t.Emitted) (kind : t.kind = .operator) :
    t.text = "+" ∨ t.text = "-" ∨ t.text = "*" ∨ t.text = "/" := by
  obtain ⟨c, rest, l, taken, sameKind, sameText⟩ := h
  rw [kind] at sameKind
  rw [sameText]
  unfold lexeme at taken
  split at taken
  · next single =>
    cases taken
    rcases (singleKind?_eq_some single).2.2 sameKind.symm with rfl | rfl | rfl | rfl
    · exact .inl rfl
    · exact .inr (.inl rfl)
    · exact .inr (.inr (.inl rfl))
    · exact .inr (.inr (.inr rfl))
  · split at taken
    · cases taken
      cases sameKind
    · split at taken <;> cases taken
      cases sameKind

end BusinessCase.Formula
