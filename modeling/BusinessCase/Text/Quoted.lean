/-
BusinessCase.Text.Quoted — a text between quotes, as messages show it.

Single quotes, unless the text holds a single quote and no double one. The
quote in use and the backslash are escaped, the three common controls have
short escapes, and every other unprintable character is written by its code
point in two, four or eight hexadecimal digits, half a character by its unit.
-/
import BusinessCase.Text.Printable
import BusinessCase.Text.Surrogate

namespace BusinessCase.Text

/-- `count` hexadecimal digits of `n`, most significant first. -/
def hexDigits : Nat → Nat → List Char
  | 0, _ => []
  | count + 1, n => hexDigits count (n / 16) ++ [Nat.digitChar (n % 16)]

/-- A code point written out in two, four or eight hexadecimal digits. -/
def escapedCode (code : Nat) : List Char :=
  if code < 0x100 then '\\' :: 'x' :: hexDigits 2 code
  else if code < 0x10000 then '\\' :: 'u' :: hexDigits 4 code
  else '\\' :: 'U' :: hexDigits 8 code

/-- One code point between the given quotes. No character is half of one, so halves are written by
number. -/
def escape (quote : Char) (code : Nat) : List Char :=
  let c := Char.ofNat code
  if c = quote || c = '\\' then ['\\', c]
  else if c = '\n' then ['\\', 'n']
  else if c = '\r' then ['\\', 'r']
  else if c = '\t' then ['\\', 't']
  else if isPrintable c then [c]
  else escapedCode code

/-- The quote around a text: a single one, unless only single ones occur inside. -/
def quoteFor (cs : List Char) : Char :=
  if cs.contains '\'' && !cs.contains '"' then '"' else '\''

def quoted (s : String) : String :=
  let cs := s.toList
  let quote := quoteFor cs
  String.ofList (quote :: (codes cs).flatMap (escape quote) ++ [quote])

end BusinessCase.Text
