/-
BusinessCase.Proofs.Text.Spelling — texts that spell code points.

A text is made of code points, and its characters spell them. So two texts with
the same code points are the same, and no text breaks off behind the mark that
half a character starts with.

  §1 Texts — `IsSpelled`.
  §2 Marks — what follows a mark.
-/
import BusinessCase.Text.Encoding

namespace BusinessCase

/-! ## §1 Texts -/

/-- The characters spell code points. -/
def IsSpelled (text : String) : Prop :=
  ∃ codes : List Nat, (∀ code ∈ codes, code < 0x110000) ∧ text = Text.ofCodes codes

theorem codes_ofCodes {codes : List Nat} (bound : ∀ code ∈ codes, code < 0x110000) :
    Text.codes (Text.ofCodes codes).toList = codes := by
  rw [Text.ofCodes, String.toList_ofList]
  induction codes with
  | nil => rfl
  | cons code codes ih =>
    obtain ⟨first, others⟩ := List.forall_mem_cons.mp bound
    rw [List.flatMap_cons, Text.codes_ofCode first, ih others]

/-- Texts with the same code points are the same. -/
theorem IsSpelled.eq_of_codes_eq {a b : String} (first : IsSpelled a) (second : IsSpelled b)
    (same : Text.codes a.toList = Text.codes b.toList) : a = b := by
  obtain ⟨codes, bound, rfl⟩ := first
  obtain ⟨codes', bound', rfl⟩ := second
  rw [codes_ofCodes bound, codes_ofCodes bound'] at same
  rw [same]

/-! ## §2 Marks -/

/-- A code point is spelled by a mark and one character more, or by another character than the
mark. -/
theorem ofCode_cases {code : Nat} (bound : code < 0x110000) :
    (∃ c, Text.ofCode code = [Text.mark, c]) ∨
      ∃ c, c ≠ Text.mark ∧ Text.ofCode code = [c] := by
  unfold Text.ofCode
  split
  · exact .inl ⟨_, rfl⟩
  · next whole =>
    split
    · exact .inl ⟨_, rfl⟩
    · next other =>
      refine .inr ⟨_, fun same => other ?_, rfl⟩
      have valid : code.isValidChar := by
        simp only [Text.isSurrogate, Bool.and_eq_true, decide_eq_true_eq] at whole
        simp only [Nat.isValidChar]
        omega
      have mark_toNat : Text.mark.toNat = Text.lastCode := Text.toNat_ofNat (by decide)
      rw [← Text.toNat_ofNat valid, same, mark_toNat]

/-- The first mark of a text has a character behind it. -/
theorem IsSpelled.behind_mark {text : String} (spelled : IsSpelled text) {before rest : List Char}
    (split : text.toList = before ++ Text.mark :: rest) (unmarked : Text.mark ∉ before) :
    rest ≠ [] := by
  obtain ⟨codes, bound, rfl⟩ := spelled
  rw [Text.ofCodes, String.toList_ofList] at split
  induction codes generalizing before with
  | nil => simp at split
  | cons code codes ih =>
    obtain ⟨first, others⟩ := List.forall_mem_cons.mp bound
    rw [List.flatMap_cons] at split
    rcases ofCode_cases first with ⟨c, half⟩ | ⟨c, other, alone⟩
    · rw [half] at split
      cases before with
      | nil =>
        obtain ⟨-, rfl⟩ := List.cons.inj split
        simp
      | cons b before =>
        obtain ⟨rfl, -⟩ := List.cons.inj split
        exact absurd List.mem_cons_self unmarked
    · rw [alone] at split
      cases before with
      | nil => exact absurd (List.cons.inj split).1 other
      | cons b before =>
        have unmarked' : Text.mark ∉ before := fun member =>
          unmarked (List.mem_cons_of_mem b member)
        exact ih unmarked' others (List.cons.inj split).2

end BusinessCase
