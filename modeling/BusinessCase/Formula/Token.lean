/-
BusinessCase.Formula.Token — the words of a formula.

`tokens` cuts a formula into numbers, identifiers, operator signs, parentheses
and commas, each with the place where it starts. Plain spaces separate and are
dropped; a character that starts no token is an error at its place. A number
or identifier runs as far as it can.

  §1 Types      — `TokenKind`, `Token`, `LexError`.
  §2 Characters — what an identifier and a numeral may hold.
  §3 Scanning   — `lexeme`, one token off the front; `tokens`, all of them.
-/
import BusinessCase.Text.Surrogate

namespace BusinessCase.Formula

/-! ## §1 Types -/

/-- The kinds of token. -/
inductive TokenKind where
  | number
  | identifier
  | operator
  | leftParen
  | rightParen
  | comma
  deriving DecidableEq

/-- A token: its kind, its text, and how many characters of the formula come before it. -/
structure Token where
  kind : TokenKind
  text : String
  offset : Nat
  deriving DecidableEq

/-- The place of a character that starts no token, and its text. -/
structure LexError where
  offset : Nat
  text : String
  deriving DecidableEq

/-! ## §2 Characters -/

def isOperatorSign (c : Char) : Bool := c = '+' || c = '-' || c = '*' || c = '/'

/-- Identifiers start with an ASCII letter or an underscore. -/
def isIdentifierStart (c : Char) : Bool := c = '_' || c.isAlpha

/-- Identifiers go on with letters, underscores and ASCII digits. -/
def isIdentifierPart (c : Char) : Bool := isIdentifierStart c || c.isDigit

/-- The characters that are tokens by themselves. -/
def singleKind? (c : Char) : Option TokenKind :=
  if c = '(' then some .leftParen
  else if c = ')' then some .rightParen
  else if c = ',' then some .comma
  else if isOperatorSign c then some .operator
  else none

/-- A numeral starts with a digit, or with a point that a digit follows. -/
def startsNumeral (c : Char) (rest : List Char) : Bool :=
  c.isDigit || (c = '.' && (rest.head?.any Char.isDigit))

/-- The longest run of digits with at most one point, none if `pointSeen`, and what follows it. -/
def splitNumeral (pointSeen : Bool) : List Char → List Char × List Char
  | [] => ([], [])
  | c :: rest =>
    if c.isDigit then
      let split := splitNumeral pointSeen rest
      (c :: split.1, split.2)
    else if c = '.' && !pointSeen then
      let split := splitNumeral true rest
      (c :: split.1, split.2)
    else ([], c :: rest)

/-- Nothing is lost in the split. -/
theorem splitNumeral_append (pointSeen : Bool) (cs : List Char) :
    (splitNumeral pointSeen cs).1 ++ (splitNumeral pointSeen cs).2 = cs := by
  induction cs generalizing pointSeen with
  | nil => rfl
  | cons c rest ih =>
    rw [splitNumeral]
    split
    · simp [ih]
    · split
      · simp [ih]
      · simp

/-! ## §3 Scanning -/

/-- The token at the front of a text, its characters, and the text behind it. -/
structure Lexeme where
  kind : TokenKind
  chars : List Char
  rest : List Char

/-- The longest token that starts with `c` and goes on in `rest`. -/
def lexeme (c : Char) (rest : List Char) : Option Lexeme :=
  match singleKind? c with
  | some kind => some ⟨kind, [c], rest⟩
  | none =>
    if startsNumeral c rest then
      let split := splitNumeral (c = '.') rest
      some ⟨.number, c :: split.1, split.2⟩
    else if isIdentifierStart c then
      some ⟨.identifier, c :: rest.takeWhile isIdentifierPart, rest.dropWhile isIdentifierPart⟩
    else none

/-- A token and the text behind it make up the text. -/
theorem lexeme_append {c : Char} {rest : List Char} {l : Lexeme} (h : lexeme c rest = some l) :
    l.chars ++ l.rest = c :: rest := by
  unfold lexeme at h
  split at h
  · cases h; rfl
  · split at h
    · cases h; simp [splitNumeral_append]
    · split at h
      · cases h; simp [List.takeWhile_append_dropWhile]
      · cases h

theorem lexeme_chars_ne_nil {c : Char} {rest : List Char} {l : Lexeme}
    (h : lexeme c rest = some l) : l.chars ≠ [] := by
  unfold lexeme at h
  split at h
  · cases h; simp
  · split at h
    · cases h; simp
    · split at h
      · cases h; simp
      · cases h

/-- Taking a token off makes the text shorter. -/
theorem lexeme_rest_length {c : Char} {rest : List Char} {l : Lexeme}
    (h : lexeme c rest = some l) : l.rest.length < (c :: rest).length := by
  have whole := congrArg List.length (lexeme_append h)
  have some_char := List.length_pos_iff.mpr (lexeme_chars_ne_nil h)
  simp only [List.length_append] at whole
  omega

/-- The tokens of a text whose first character stands at `offset`. -/
def tokensFrom (offset : Nat) (cs : List Char) : Except LexError (List Token) :=
  match cs with
  | [] => .ok []
  | c :: rest =>
    if c = ' ' then tokensFrom (offset + 1) rest
    else
      match _taken : lexeme c rest with
      | none => .error ⟨offset, Text.front c rest⟩
      | some l =>
        (tokensFrom (offset + l.chars.length) l.rest).map
          (⟨l.kind, String.ofList l.chars, offset⟩ :: ·)
termination_by cs.length
decreasing_by
  · simp
  · exact lexeme_rest_length _taken

def tokens (expression : String) : Except LexError (List Token) := tokensFrom 0 expression.toList

end BusinessCase.Formula
