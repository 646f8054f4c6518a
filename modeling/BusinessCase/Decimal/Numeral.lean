/-
BusinessCase.Decimal.Numeral — whole and decimal numbers read from text.

Blanks around a numeral are skipped, digits of any script count, one
underscore may stand between two digits, and a decimal may carry an exponent
or be one of the words for infinity and for no number.

  §1 Plain spelling — `plainSpelling`.
  §2 Whole numbers  — `readInt`, with its two faults.
  §3 Decimals       — `readFloat?`.
-/
import BusinessCase.Decimal.Binary64
import BusinessCase.Text.Blank
import BusinessCase.Text.Case
import BusinessCase.Text.Digit

namespace BusinessCase.Decimal

open BusinessCase.Text

/-! ## §1 Plain spelling -/

/-- Blanks that may surround a numeral once its spelling is plain. -/
def isNumeralBlank (c : Char) : Bool := c = ' ' || (9 ≤ c.toNat && c.toNat ≤ 13)

/-- One character in the plain spelling: wide blanks become spaces and digits of any script become
ASCII digits. -/
def plainChar (c : Char) : Char :=
  if c.toNat < 127 then c
  else if isBlank c then ' '
  else match digitValue? c with
    | some n => plainDigit n
    | none => c

/-- The characters of a numeral in the plain spelling, without the blanks around it. -/
def plainSpelling (text : String) : List Char :=
  stripChars isNumeralBlank (text.toList.map plainChar)

/-- Removes underscores, each of which must stand between two digits of the given kind; the flag
says whether a digit came just before. -/
def joinDigits (isDigit : Char → Bool) (afterDigit : Bool) : List Char → Option (List Char)
  | [] => some []
  | '_' :: next :: rest =>
    if afterDigit && isDigit next then (joinDigits isDigit true rest).map (next :: ·) else none
  | c :: rest => if c = '_' then none else (joinDigits isDigit (isDigit c) rest).map (c :: ·)

def digitsValue (digits : List Char) : Nat :=
  digits.foldl (fun n c => 10 * n + (c.toNat - 48)) 0

/-- Splits off a sign; `true` is a minus. -/
def splitSign : List Char → Bool × List Char
  | '-' :: rest => (true, rest)
  | '+' :: rest => (false, rest)
  | cs => (false, cs)

/-! ## §2 Whole numbers -/

/-- Why a text is not taken as a whole number. -/
inductive IntegerFault where
  /-- The text is not the spelling of a whole number. -/
  | malformed
  /-- It has more digits than are converted. -/
  | tooManyDigits (count : Nat)

/-- Longest run of digits that is converted to a whole number. -/
def maxIntegerDigits : Nat := 4300

/-- Reads a whole number with an optional sign. The digits in front are counted before it is seen
whether anything follows them. -/
def readInt (text : String) : Except IntegerFault Int :=
  let (negative, body) := splitSign (plainSpelling text)
  let run := body.takeWhile fun c => c.isDigit || c = '_'
  match joinDigits Char.isDigit false run with
  | some digits =>
    if digits.isEmpty then .error .malformed
    else if maxIntegerDigits < digits.length then .error (.tooManyDigits digits.length)
    else if run.length < body.length then .error .malformed
    else
      let n : Int := digitsValue digits
      .ok (if negative then -n else n)
  | none => .error .malformed

/-! ## §3 Decimals -/

/-- The double nearest to `± mantissa · 10 ^ exponent`. Exponents far beyond the range of doubles
are answered without forming the power. -/
def ofDecimal (negative : Bool) (mantissa : Nat) (exponent : Int) : Float :=
  let lead : Int := (Nat.log2 mantissa * 30103 / 100000 : Nat) + exponent
  if mantissa = 0 || lead < -330 then ofPattern negative 0
  else if 310 < lead then ofPattern negative infinityPattern
  else if exponent < 0 then nearest negative mantissa (Nat.pow 10 exponent.natAbs)
  else nearest negative (mantissa * Nat.pow 10 exponent.natAbs) 1

/-- The exponent part: nothing, or `e` with an optional sign and digits. -/
def readExponent? : List Char → Option Int
  | [] => some 0
  | mark :: rest =>
    if mark = 'e' || mark = 'E' then
      let (negative, digits) := splitSign rest
      if digits.isEmpty || !digits.all Char.isDigit then none
      else
        let n : Int := digitsValue digits
        some (if negative then -n else n)
    else none

/-- An unsigned decimal: digits with at most one point and at least one digit, then the exponent. -/
def readDecimal? (negative : Bool) (cs : List Char) : Option Float :=
  let whole := cs.takeWhile Char.isDigit
  let afterWhole := cs.dropWhile Char.isDigit
  let fraction := match afterWhole with
    | '.' :: rest => rest.takeWhile Char.isDigit
    | _ => []
  let tail := match afterWhole with
    | '.' :: rest => rest.dropWhile Char.isDigit
    | _ => afterWhole
  if whole.isEmpty && fraction.isEmpty then none
  else (readExponent? tail).map fun exponent =>
    ofDecimal negative (digitsValue (whole ++ fraction)) (exponent - fraction.length)

/-- Reads a double: an optional sign, then a decimal or a word for infinity or for no number. -/
def readFloat? (text : String) : Option Float :=
  (joinDigits Char.isDigit false (plainSpelling text)).bind fun cs =>
    let (negative, body) := splitSign cs
    let word := lower (String.ofList body)
    if word = "inf" || word = "infinity" then some (ofPattern negative infinityPattern)
    else if word = "nan" then some (0.0 / 0.0)
    else readDecimal? negative body

end BusinessCase.Decimal
