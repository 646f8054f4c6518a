/-
BusinessCase.Proofs.Formula.Grammar — which token lists are formulas.

`Derives phrase tokens tree open` says that the tokens form a phrase of the
grammar with that tree, and that at most so many parentheses, calls and signs
are open at once anywhere in it. Nothing is said about how tokens are read.

  §1 Signs      — the tokens that stand for operators.
  §2 Grammar    — `Phrase`, `Derives`, `DerivesAll`.
  §3 First word — a phrase starts with a token that is no closing parenthesis.
  §4 Trees      — a derived tree has no foreign node.
-/
import BusinessCase.Formula.Parser
import BusinessCase.Proofs.Formula.Walks

namespace BusinessCase.Formula

/-! ## §1 Signs -/

/-- A sign, and an operator of sums. -/
def Token.IsSumSign (t : Token) : Prop := t.kind = .operator ∧ (t.text = "+" ∨ t.text = "-")

/-- An operator of products. -/
def Token.IsProductSign (t : Token) : Prop := t.kind = .operator ∧ (t.text = "*" ∨ t.text = "/")

/-! ## §2 Grammar -/

/-- The kinds of phrase, from the weakest binding to the strongest. -/
inductive Phrase where
  | sum
  | product
  | signed
  | primary

mutual

/-- The tokens form the phrase, with that tree, and at most `n` openings are open at once. Sums and
products group to the left; parentheses leave no node. -/
inductive Derives : Phrase → (tokens : List Token) → (tree : Expr Float) → (n : Nat) → Prop where
  | number {t : Token} {x : Float} (kind : t.kind = .number)
      (value : Decimal.readFloat? t.text = some x) : Derives .primary [t] (.number x) 0
  | reference {t : Token} (kind : t.kind = .identifier) :
      Derives .primary [t] (.reference t.text) 0
  | emptyCall {name opening closing : Token} (isName : name.kind = .identifier)
      (opens : opening.kind = .leftParen) (closes : closing.kind = .rightParen) :
      Derives .primary [name, opening, closing] (.call name.text []) 1
  | call {name opening closing : Token} {ts : List Token} {arguments : List (Expr Float)} {n : Nat}
      (isName : name.kind = .identifier) (opens : opening.kind = .leftParen)
      (inside : DerivesAll ts arguments n) (closes : closing.kind = .rightParen) :
      Derives .primary (name :: opening :: (ts ++ [closing])) (.call name.text arguments) (n + 1)
  | group {opening closing : Token} {ts : List Token} {e : Expr Float} {n : Nat}
      (opens : opening.kind = .leftParen) (inside : Derives .sum ts e n)
      (closes : closing.kind = .rightParen) :
      Derives .primary (opening :: (ts ++ [closing])) e (n + 1)
  | primary {ts : List Token} {e : Expr Float} {n : Nat} (h : Derives .primary ts e n) :
      Derives .signed ts e n
  | sign {t : Token} {ts : List Token} {e : Expr Float} {n : Nat} (isSign : t.IsSumSign)
      (argument : Derives .signed ts e n) :
      Derives .signed (t :: ts) (.unary (.ofSign t.text) e) (n + 1)
  | signed {ts : List Token} {e : Expr Float} {n : Nat} (h : Derives .signed ts e n) :
      Derives .product ts e n
  | times {ts us : List Token} {t : Token} {l r : Expr Float} {m n : Nat}
      (left : Derives .product ts l m) (isSign : t.IsProductSign)
      (right : Derives .signed us r n) :
      Derives .product (ts ++ t :: us) (.binary (.ofSign t.text) l r) (max m n)
  | product {ts : List Token} {e : Expr Float} {n : Nat} (h : Derives .product ts e n) :
      Derives .sum ts e n
  | plus {ts us : List Token} {t : Token} {l r : Expr Float} {m n : Nat}
      (left : Derives .sum ts l m) (isSign : t.IsSumSign) (right : Derives .product us r n) :
      Derives .sum (ts ++ t :: us) (.binary (.ofSign t.text) l r) (max m n)

/-- The tokens form one or more sums with commas between them. -/
inductive DerivesAll : (tokens : List Token) → (trees : List (Expr Float)) → (n : Nat) → Prop where
  | one {ts : List Token} {e : Expr Float} {n : Nat} (h : Derives .sum ts e n) :
      DerivesAll ts [e] n
  | more {ts us : List Token} {comma : Token} {es : List (Expr Float)} {e : Expr Float} {m n : Nat}
      (front : DerivesAll ts es m) (separates : comma.kind = .comma)
      (last : Derives .sum us e n) : DerivesAll (ts ++ comma :: us) (es ++ [e]) (max m n)

end

/-! ## §3 First word -/

/-- The list starts with a token that is no closing parenthesis. -/
def StartsInside (ts : List Token) : Prop := ∃ t rest, ts = t :: rest ∧ t.kind ≠ .rightParen

theorem StartsInside.append {ts : List Token} (h : StartsInside ts) (us : List Token) :
    StartsInside (ts ++ us) := by
  obtain ⟨t, rest, rfl, kind⟩ := h
  exact ⟨t, rest ++ us, rfl, kind⟩

/-- No phrase starts with a closing parenthesis. -/
theorem Derives.startsInside {p : Phrase} {ts : List Token} {e : Expr Float} {n : Nat} :
    Derives p ts e n → StartsInside ts
  | .number kind _ => ⟨_, [], rfl, by simp [kind]⟩
  | .reference kind => ⟨_, [], rfl, by simp [kind]⟩
  | .emptyCall isName _ _ => ⟨_, _, rfl, by simp [isName]⟩
  | .call isName _ _ _ => ⟨_, _, rfl, by simp [isName]⟩
  | .group opens _ _ => ⟨_, _, rfl, by simp [opens]⟩
  | .primary h => h.startsInside
  | .sign isSign _ => ⟨_, _, rfl, by simp [isSign.1]⟩
  | .signed h => h.startsInside
  | .times left _ _ => left.startsInside.append _
  | .product h => h.startsInside
  | .plus left _ _ => left.startsInside.append _

theorem DerivesAll.startsInside {ts : List Token} {es : List (Expr Float)} {n : Nat} :
    DerivesAll ts es n → StartsInside ts
  | .one h => h.startsInside
  | .more front _ _ => front.startsInside.append _

theorem DerivesAll.ne_nil {ts : List Token} {es : List (Expr Float)} {n : Nat}
    (h : DerivesAll ts es n) : es ≠ [] := by
  cases h <;> simp

/-! ## §4 Trees -/

mutual

/-- A derived tree has no foreign node. -/
theorem Derives.isProper {p : Phrase} {ts : List Token} {e : Expr Float} {n : Nat} :
    Derives p ts e n → e.isProper
  | .number _ _ => rfl
  | .reference _ => rfl
  | .emptyCall _ _ _ => rfl
  | .call _ _ inside _ => inside.allProper
  | .group _ inside _ => inside.isProper
  | .primary h => h.isProper
  | .sign _ argument => argument.isProper
  | .signed h => h.isProper
  | .times left _ right => Bool.and_eq_true_iff.mpr ⟨left.isProper, right.isProper⟩
  | .product h => h.isProper
  | .plus left _ right => Bool.and_eq_true_iff.mpr ⟨left.isProper, right.isProper⟩

theorem DerivesAll.allProper {ts : List Token} {es : List (Expr Float)} {n : Nat} :
    DerivesAll ts es n → Expr.allProper es
  | .one h => by simp [Expr.allProper, h.isProper]
  | .more front _ last => by
    have before := front.allProper
    simp only [Expr.allProper_eq] at before ⊢
    simp [before, last.isProper]

end

end BusinessCase.Formula
