/-
BusinessCase.Text.Surrogate — halves of characters.

A character outside the first plane is written as two units, a high and a low
surrogate, and a payload may hold one half without the other. No character has
the number of a half, so a half is spelled with two: a mark, and a stand-in
that tells the unit. The mark is the last code point, which no text needs;
where a text holds it all the same, it is doubled.

  §1 Units    — halves, and the pairs that they form.
  §2 Spelling — `ofCode`, code points to characters.
  §3 Reading  — `codes`, characters to code points; `characters`.

Main statement: `codes_ofCode`, what has been spelled is read back, whatever
follows it.
-/

namespace BusinessCase.Text

/-! ## §1 Units -/

def isHighSurrogate (unit : Nat) : Bool := 0xd800 ≤ unit && unit < 0xdc00

def isLowSurrogate (unit : Nat) : Bool := 0xdc00 ≤ unit && unit < 0xe000

/-- Half a character. -/
def isSurrogate (code : Nat) : Bool := 0xd800 ≤ code && code < 0xe000

def joinPair (high low : Nat) : Nat := 0x10000 + (high - 0xd800) * 1024 + (low - 0xdc00)

/-! ## §2 Spelling -/

def lastCode : Nat := 0x10ffff

/-- What stands before the stand-in for a half, and before itself. -/
def mark : Char := Char.ofNat lastCode

/-- The characters that spell a code point. -/
def ofCode (code : Nat) : List Char :=
  if isSurrogate code then [mark, Char.ofNat (0x100000 + code)]
  else if code = lastCode then [mark, mark]
  else [Char.ofNat code]

/-- The spelling of a text without halves. -/
def spell (s : String) : String := String.ofList (s.toList.flatMap fun c => ofCode c.toNat)

/-! ## §3 Reading -/

/-- The code point that a character behind a mark tells. -/
def markedCode (c : Char) : Nat := if c = mark then lastCode else c.toNat - 0x100000

/-- The code points that a text spells. -/
def codes : List Char → List Nat
  | [] => []
  | [c] => [c.toNat]
  | c :: d :: rest => if c = mark then markedCode d :: codes rest else c.toNat :: codes (d :: rest)

/-- What spells the first code point of the text that starts with `c` and goes on in `rest`. -/
def front (c : Char) (rest : List Char) : String :=
  String.ofList (if c = mark then c :: rest.take 1 else [c])

/-- The texts of single code points that a text is made of. -/
def characters (s : String) : List String :=
  (codes s.toList).map fun code => String.ofList (ofCode code)

def size (s : String) : Nat := (codes s.toList).length

/-- Does one text come before another, code point by code point, or are they equal? -/
def precedes (a b : String) : Bool := !(codes b.toList).lex (codes a.toList) Nat.blt

/-- A character that is there has its own number. -/
theorem toNat_ofNat {code : Nat} (valid : code.isValidChar) : (Char.ofNat code).toNat = code := by
  rw [Char.ofNat, dif_pos valid]
  rfl

/-- Another character than the mark stands for itself. -/
theorem codes_cons {c : Char} (h : c ≠ mark) (rest : List Char) :
    codes (c :: rest) = c.toNat :: codes rest := by
  cases rest with
  | nil => rfl
  | cons d rest => rw [codes, if_neg h]

/-- What has been spelled is read back, whatever follows it. -/
theorem codes_ofCode {code : Nat} (bound : code < 0x110000) (rest : List Char) :
    codes (ofCode code ++ rest) = code :: codes rest := by
  have mark_toNat : mark.toNat = lastCode := toNat_ofNat (by decide)
  unfold ofCode
  split
  · next half =>
    have range : 0xd800 ≤ code ∧ code < 0xe000 := by simpa [isSurrogate] using half
    have standIn : (Char.ofNat (0x100000 + code)).toNat = 0x100000 + code :=
      toNat_ofNat (Or.inr (by omega))
    have other : Char.ofNat (0x100000 + code) ≠ mark := by
      intro same
      rw [same, mark_toNat, lastCode] at standIn
      omega
    simp [codes, markedCode, other, standIn]
  · next whole =>
    have outside : code < 0xd800 ∨ 0xe000 ≤ code := by
      simp [isSurrogate] at whole
      omega
    split
    · next last => simp [codes, markedCode, last]
    · next other =>
      have own : (Char.ofNat code).toNat = code := toNat_ofNat (by
        simp only [Nat.isValidChar]
        omega)
      have unmarked : Char.ofNat code ≠ mark := by
        intro same
        rw [same, mark_toNat] at own
        exact other own.symm
      rw [List.singleton_append, codes_cons unmarked, own]

end BusinessCase.Text
