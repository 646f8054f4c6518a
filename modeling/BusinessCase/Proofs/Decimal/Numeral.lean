/-
BusinessCase.Proofs.Decimal.Numeral — plain numerals are numbers.

A plain numeral has digits with at most one point among them, and at least one
digit. `exists_readFloat` says that every such text is read as a double.
-/
import BusinessCase.Decimal.Numeral
import Mathlib.Data.List.TakeWhile

namespace BusinessCase.Decimal

open BusinessCase.Text

/-- Digits, or digits around a point; at least one digit in all. -/
inductive IsPlainNumeral : List Char → Prop where
  | whole {digits : List Char} (all : ∀ c ∈ digits, c.isDigit) (some_digit : digits ≠ []) :
      IsPlainNumeral digits
  | pointed {whole fraction : List Char} (all : ∀ c ∈ whole ++ fraction, c.isDigit)
      (some_digit : whole ++ fraction ≠ []) : IsPlainNumeral (whole ++ '.' :: fraction)

/-- The characters of plain numerals. -/
def IsNumeralChar (c : Char) : Prop := c.isDigit ∨ c = '.'

theorem IsPlainNumeral.chars {cs : List Char} (h : IsPlainNumeral cs) :
    ∀ c ∈ cs, IsNumeralChar c := by
  intro c member
  cases h with
  | whole all => exact .inl (all c member)
  | pointed all =>
    rcases List.mem_append.mp member with before | after
    · exact .inl (all c (List.mem_append_left _ before))
    · rcases List.mem_cons.mp after with point | after
      · exact .inr point
      · exact .inl (all c (List.mem_append_right _ after))

theorem IsPlainNumeral.ne_nil {cs : List Char} (h : IsPlainNumeral cs) : cs ≠ [] := by
  cases h with
  | whole _ some_digit => exact some_digit
  | pointed => simp

/-- Digits and points are numerals if a digit is among them, and at most one point. -/
theorem isPlainNumeral_iff {cs : List Char} :
    IsPlainNumeral cs ↔
      (∀ c ∈ cs, IsNumeralChar c) ∧ cs.count '.' ≤ 1 ∧ ∃ c ∈ cs, c.isDigit := by
  have noPoint (digits : List Char) (all : ∀ c ∈ digits, c.isDigit) : '.' ∉ digits := fun member =>
    absurd (all '.' member) (by decide)
  constructor
  · intro plain
    refine ⟨plain.chars, ?_⟩
    cases plain with
    | whole all some_digit =>
      obtain ⟨c, member⟩ := List.exists_mem_of_ne_nil cs some_digit
      rw [List.count_eq_zero.mpr (noPoint cs all)]
      exact ⟨Nat.zero_le 1, c, member, all c member⟩
    | @pointed before fraction all some_digit =>
      obtain ⟨c, member⟩ := List.exists_mem_of_ne_nil _ some_digit
      have front := noPoint before fun c inFront => all c (List.mem_append_left _ inFront)
      have back := noPoint fraction fun c behind => all c (List.mem_append_right _ behind)
      rw [List.count_append, List.count_cons_self, List.count_eq_zero.mpr front,
        List.count_eq_zero.mpr back]
      refine ⟨Nat.le_refl 1, c, ?_, all c member⟩
      rcases List.mem_append.mp member with inFront | behind
      · exact List.mem_append_left _ inFront
      · exact List.mem_append_right _ (List.mem_cons_of_mem _ behind)
  · rintro ⟨chars, points, c, member, digit⟩
    by_cases point : '.' ∈ cs
    · obtain ⟨before, fraction, rfl⟩ := List.append_of_mem point
      rw [List.count_append, List.count_cons_self] at points
      have noFront : '.' ∉ before := List.count_eq_zero.mp (by omega)
      have noBack : '.' ∉ fraction := List.count_eq_zero.mp (by omega)
      refine .pointed (fun d among => ?_) (List.ne_nil_of_mem (a := c) ?_)
      · rcases List.mem_append.mp among with inFront | behind
        · refine (chars d (by simp [inFront])).resolve_right ?_
          rintro rfl
          exact noFront inFront
        · refine (chars d (by simp [behind])).resolve_right ?_
          rintro rfl
          exact noBack behind
      · have other : c ≠ '.' := by
          rintro rfl
          exact absurd digit (by decide)
        simpa [other] using member
    · refine .whole (fun d among => (chars d among).resolve_right ?_) (List.ne_nil_of_mem member)
      rintro rfl
      exact point among

/-- Digits and the point have small code points, above those of blanks. -/
theorem IsNumeralChar.toNat_range {c : Char} (h : IsNumeralChar c) :
    46 ≤ c.toNat ∧ c.toNat ≤ 57 := by
  rcases h with digit | rfl
  · simp only [Char.isDigit, Bool.and_eq_true, decide_eq_true_eq, UInt32.le_iff_toNat_le] at digit
    have low : 48 ≤ c.toNat := digit.1
    have high : c.toNat ≤ 57 := digit.2
    omega
  · decide

theorem plainChar_of_isNumeralChar {c : Char} (h : IsNumeralChar c) : plainChar c = c := by
  have range := h.toNat_range
  rw [plainChar, if_pos (by omega)]

theorem isNumeralBlank_of_isNumeralChar {c : Char} (h : IsNumeralChar c) :
    isNumeralBlank c = false := by
  have range := h.toNat_range
  have no_space : c ≠ ' ' := by
    rintro rfl
    exact absurd range (by decide)
  simp [isNumeralBlank, no_space]
  omega

theorem stripChars_eq_self {p : Char → Bool} {cs : List Char} (h : ∀ c ∈ cs, p c = false) :
    stripChars p cs = cs := by
  have keep : ∀ ds : List Char, (∀ c ∈ ds, p c = false) → ds.dropWhile p = ds := by
    intro ds none
    cases ds with
    | nil => rfl
    | cons d rest => rw [List.dropWhile_cons, none d List.mem_cons_self]; rfl
  rw [stripChars, keep cs h, keep _ (fun c member => h c (List.mem_reverse.mp member)),
    List.reverse_reverse]

/-- Nothing about a plain numeral needs to be made plain. -/
theorem plainSpelling_eq {cs : List Char} (h : ∀ c ∈ cs, IsNumeralChar c) :
    plainSpelling (String.ofList cs) = cs := by
  have plain : cs.map plainChar = cs :=
    List.map_congr_left (fun c member => plainChar_of_isNumeralChar (h c member)) |>.trans
      (List.map_id' cs)
  rw [plainSpelling, String.toList_ofList, plain]
  exact stripChars_eq_self fun c member => isNumeralBlank_of_isNumeralChar (h c member)

/-- Without underscores there is nothing to join. -/
theorem joinDigits_eq {isDigit : Char → Bool} {cs : List Char} (h : '_' ∉ cs) (after : Bool) :
    joinDigits isDigit after cs = some cs := by
  induction cs generalizing after with
  | nil => rfl
  | cons c rest ih =>
    have first : c ≠ '_' := fun same => h (same ▸ List.mem_cons_self)
    have later := ih (fun member => h (List.mem_cons_of_mem c member)) (isDigit c)
    rw [joinDigits, if_neg first, later, Option.map_some]
    rintro next rest' rfl
    exact absurd rfl first

theorem splitSign_eq {c : Char} (rest : List Char) (h : IsNumeralChar c) :
    splitSign (c :: rest) = (false, c :: rest) := by
  have range := h.toNat_range
  unfold splitSign
  split
  · next same =>
    obtain ⟨rfl, -⟩ := List.cons.inj same
    exact absurd range (by decide)
  · next same =>
    obtain ⟨rfl, -⟩ := List.cons.inj same
    exact absurd range (by decide)
  · rfl

/-- A plain numeral is no word. -/
theorem lower_ne {c d : Char} (rest word : List Char) (h : IsNumeralChar c)
    (letter : 57 < d.toNat) : lower (String.ofList (c :: rest)) ≠ String.ofList (d :: word) := by
  intro same
  have range := h.toNat_range
  have small : c.toLower = c := by
    refine dif_neg ?_
    rintro ⟨capital, -⟩
    have : 65 ≤ c.toNat := capital
    omega
  rw [lower, String.toList_ofList, String.ofList_inj, List.map_cons, small] at same
  obtain ⟨rfl, -⟩ := List.cons.inj same
  omega

/-- A plain numeral is a decimal. -/
theorem exists_readDecimal (negative : Bool) {cs : List Char} (h : IsPlainNumeral cs) :
    ∃ x, readDecimal? negative cs = some x := by
  cases h with
  | whole all some_digit =>
    have digits := List.takeWhile_eq_self_iff.mpr all
    have none_left := List.dropWhile_eq_nil_iff.mpr all
    simp [readDecimal?, digits, none_left, some_digit, readExponent?]
  | @pointed whole fraction all some_digit =>
    have digits : (whole ++ '.' :: fraction).takeWhile Char.isDigit = whole := by
      rw [List.takeWhile_append_of_pos fun c member => all c (List.mem_append_left _ member)]
      simp
    have left : (whole ++ '.' :: fraction).dropWhile Char.isDigit = '.' :: fraction := by
      rw [List.dropWhile_append_of_pos fun c member => all c (List.mem_append_left _ member)]
      simp
    have after : ∀ c ∈ fraction, c.isDigit := fun c member => all c (List.mem_append_right _ member)
    have places := List.takeWhile_eq_self_iff.mpr after
    have none_left := List.dropWhile_eq_nil_iff.mpr after
    have some_digit' : ¬ (whole = [] ∧ fraction = []) := by
      rintro ⟨rfl, rfl⟩
      exact some_digit rfl
    simp [readDecimal?, digits, left, places, none_left, some_digit', readExponent?]

/-- **Every plain numeral is read as a double.** -/
theorem exists_readFloat {cs : List Char} (h : IsPlainNumeral cs) :
    ∃ x, readFloat? (String.ofList cs) = some x := by
  have chars := h.chars
  have no_joint : '_' ∉ cs := fun member => absurd (chars '_' member).toNat_range (by decide)
  obtain ⟨c, rest, rfl⟩ := List.exists_cons_of_ne_nil h.ne_nil
  have first : IsNumeralChar c := chars c List.mem_cons_self
  obtain ⟨x, read⟩ := exists_readDecimal false h
  refine ⟨x, ?_⟩
  rw [readFloat?, plainSpelling_eq chars, joinDigits_eq no_joint, Option.bind_some,
    splitSign_eq rest first]
  have inf := lower_ne rest ['n', 'f'] first (show 57 < ('i').toNat by decide)
  have infinity := lower_ne rest ['n', 'f', 'i', 'n', 'i', 't', 'y'] first
    (show 57 < ('i').toNat by decide)
  have nan := lower_ne rest ['a', 'n'] first (show 57 < ('n').toNat by decide)
  simp only [decide_eq_true_eq, Bool.or_eq_true]
  rw [if_neg (not_or.mpr ⟨inf, infinity⟩), if_neg nan, read]

end BusinessCase.Decimal
