/-
BusinessCase.Value.Writer — `Value` to payload text.

The inverse of reading for values without decimals, which are written in their
exact text.
-/
import BusinessCase.Value

namespace BusinessCase.Value

/-- One code point of a written text. Controls and halves of characters are written by number. -/
def writeCode (code : Nat) : List Char :=
  if code < 0x20 || Text.isSurrogate code then '\\' :: 'u' :: Text.hexDigits 4 code
  else
    let c := Char.ofNat code
    if c = '"' || c = '\\' then ['\\', c] else [c]

/-- A text between double quotes. -/
def writeText (s : String) : String :=
  String.ofList ('"' :: (Text.codes s.toList).flatMap writeCode ++ ['"'])

mutual

/-- Appends the text of a value. -/
def writeOn (out : String) : Value → String
  | null => out ++ "null"
  | bool true => out ++ "true"
  | bool false => out ++ "false"
  | int n => out ++ toString n
  | float x => out ++ Decimal.exact x
  | text s => out ++ writeText s
  | list items => writeItemsOn (out ++ "[") true items ++ "]"
  | object fields => writeFieldsOn (out ++ "\x7b") true fields ++ "\x7d"

def writeItemsOn (out : String) (first : Bool) : List Value → String
  | [] => out
  | item :: rest => writeItemsOn (writeOn (if first then out else out ++ ",") item) false rest

def writeFieldsOn (out : String) (first : Bool) : List (String × Value) → String
  | [] => out
  | (name, value) :: rest =>
    let start := (if first then out else out ++ ",") ++ writeText name ++ ":"
    writeFieldsOn (writeOn start value) false rest

end

def write (value : Value) : String := writeOn "" value

end BusinessCase.Value
