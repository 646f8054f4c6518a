/-
BusinessCase.Formula.Message — what is said about a faulty formula.
-/
import BusinessCase.Formula.Evaluator
import BusinessCase.Formula.Parser

namespace BusinessCase.Formula

/-- Where a character that starts no token stands. -/
def LexError.message (e : LexError) : String :=
  "Invalid character '" ++ e.text ++ "' at position " ++ toString e.offset

namespace ParseError

/-- The place that an error points at; a formula that is too long is cut at its limit. -/
def offset : ParseError → Value
  | endOfInput offset => .int offset
  | unexpected token | tooNested token _ => .int token.offset
  | tooDeep _ | badNumeral _ => .int 0
  | tooLong limit => limit

def found : ParseError → Option String
  | unexpected token | tooNested token _ => some token.text
  | endOfInput _ | tooDeep _ | tooLong _ | badNumeral _ => none

def unexpectedText (offset : Value) : Option String → String
  | some text => "Unexpected token '" ++ text ++ "' at position " ++ offset.plain
  | none => "Unexpected end of expression at position " ++ offset.plain

def tooNestedText (limit offset : Value) : String :=
  "Expression nested deeper than " ++ limit.plain ++ " levels at position " ++ offset.plain

def message : ParseError → String
  | endOfInput offset => unexpectedText (.int offset) none
  | unexpected token => unexpectedText (.int token.offset) (some token.text)
  | tooNested token limit => tooNestedText limit (.int token.offset)
  | tooDeep limit => "Expression is deeper than " ++ limit.plain ++ " levels"
  | tooLong limit => "Expression is longer than " ++ limit.plain ++ " characters"
  | badNumeral text => "could not convert string to float: " ++ Text.quoted text

end ParseError

/-- What is said about names that nothing stands behind, in increasing order. -/
def unknownNamesText (what : String) (names : List String) : String :=
  (if names.length = 1 then "Unknown " ++ what else "Unknown " ++ what ++ "s") ++ ": " ++
    ", ".intercalate names

def nonNumericText (name : String) (value : Value) : String :=
  "'" ++ name ++ "' resolved to " ++ value.kindName ++ " " ++ value.quoted ++
    "; a number is required"

end BusinessCase.Formula
