/-
BusinessCase.Value.Reader — payload text to `Value`.

The usual object notation, with three words more: `NaN`, `Infinity` and
`-Infinity`. A repeated field name keeps its first place and its last value.

  §1 Scanning  — blanks, words, numbers, texts.
  §2 Values    — `readValue` with its lists and objects; `Value.read`.
-/
import BusinessCase.Value
import BusinessCase.Decimal.Numeral
import BusinessCase.Text.Surrogate

namespace BusinessCase.Value

/-- Why a text holds no payload. -/
inductive ReadFault where
  | malformed
  /-- Lists and objects are nested beyond the reader's depth. -/
  | tooDeep

/-- Deepest nesting of lists and objects that is read. -/
def maxReadDepth : Nat := 977

/-! ## §1 Scanning -/

/-- The blanks of the notation. -/
def isGap (c : Char) : Bool := c = ' ' || c = '\t' || c = '\n' || c = '\r'

def skipGap (cs : List Char) : List Char := cs.dropWhile isGap

/-- What follows the word `word`, if the text starts with it. -/
def afterWord? : List Char → List Char → Option (List Char)
  | [], cs => some cs
  | _ :: _, [] => none
  | w :: word, c :: cs => if w = c then afterWord? word cs else none

def hexValue? (c : Char) : Option Nat :=
  if c.isDigit then some (c.toNat - 48)
  else if 'a' ≤ c ∧ c ≤ 'f' then some (c.toNat - 87)
  else if 'A' ≤ c ∧ c ≤ 'F' then some (c.toNat - 55)
  else none

/-- A unit written as four hexadecimal digits, and the rest. -/
def hexUnit? : List Char → Option (Nat × List Char)
  | a :: b :: c :: d :: rest => do
    let a ← hexValue? a
    let b ← hexValue? b
    let c ← hexValue? c
    let d ← hexValue? d
    some (((a * 16 + b) * 16 + c) * 16 + d, rest)
  | _ => none

/-- The second half of a pair, if it is written next, and the rest. -/
def lowUnit? : List Char → Option (Nat × List Char)
  | '\\' :: 'u' :: more => (hexUnit? more).filter fun read => Text.isLowSurrogate read.1
  | _ => none

/-- The code point of one unit, or of a pair of units where the second half follows at once. -/
def unitCode (unit : Nat) (rest : List Char) : Nat × List Char :=
  match if Text.isHighSurrogate unit then lowUnit? rest else none with
  | some (low, after) => (Text.joinPair unit low, after)
  | none => (unit, rest)

def shortEscape? : Char → Option Char
  | '"' => some '"'
  | '\\' => some '\\'
  | '/' => some '/'
  | 'b' => some '\x08'
  | 'f' => some '\x0c'
  | 'n' => some '\n'
  | 'r' => some '\r'
  | 't' => some '\t'
  | _ => none

/-- The characters up to the closing quote, newest first in `done`, and the rest. -/
def scanText : (fuel : Nat) → (done : List Char) → List Char → Option (String × List Char)
  | 0, _, _ => none
  | _ + 1, _, [] => none
  | _ + 1, done, '"' :: rest => some (String.ofList done.reverse, rest)
  | fuel + 1, done, '\\' :: 'u' :: rest => do
    let (unit, rest) ← hexUnit? rest
    let (code, rest) := unitCode unit rest
    scanText fuel ((Text.ofCode code).reverse ++ done) rest
  | fuel + 1, done, '\\' :: mark :: rest => do
    let c ← shortEscape? mark
    scanText fuel (c :: done) rest
  | fuel + 1, done, c :: rest =>
    if c.toNat < 0x20 || c = '\\' then none else scanText fuel (c :: done) rest

/-- The digits after a point, if there are any; nothing is taken otherwise. -/
def scanFraction (cs : List Char) : List Char × List Char :=
  match cs with
  | '.' :: rest =>
    let digits := rest.takeWhile Char.isDigit
    if digits.isEmpty then ([], cs) else (digits, rest.dropWhile Char.isDigit)
  | _ => ([], cs)

/-- The exponent, if there is a whole one; nothing is taken otherwise. -/
def scanExponent (cs : List Char) : Option Int × List Char :=
  match cs with
  | mark :: rest =>
    if mark = 'e' || mark = 'E' then
      let (negative, body) := Decimal.splitSign rest
      let digits := body.takeWhile Char.isDigit
      if digits.isEmpty then (none, cs)
      else
        let n : Int := Decimal.digitsValue digits
        (some (if negative then -n else n), body.dropWhile Char.isDigit)
    else (none, cs)
  | [] => (none, cs)

/-- The digits before the point: a single zero, or a run that starts with another digit. -/
def scanWhole (cs : List Char) : Option (List Char × List Char) :=
  match cs with
  | '0' :: rest => some (['0'], rest)
  | c :: _ =>
    if c.isDigit then some (cs.takeWhile Char.isDigit, cs.dropWhile Char.isDigit) else none
  | [] => none

/-- A number: whole without a fraction and an exponent, a decimal otherwise. -/
def scanNumber (negative : Bool) (cs : List Char) : Option (Value × List Char) := do
  let (whole, rest) ← scanWhole cs
  let (fraction, rest) := scanFraction rest
  let (exponent, rest) := scanExponent rest
  if fraction.isEmpty && exponent.isNone then
    if Decimal.maxIntegerDigits < whole.length then none
    else
      let n : Int := Decimal.digitsValue whole
      some (.int (if negative then -n else n), rest)
  else
    let mantissa := Decimal.digitsValue (whole ++ fraction)
    some (.float (Decimal.ofDecimal negative mantissa (exponent.getD 0 - fraction.length)), rest)

def scanAtom (cs : List Char) : Option (Value × List Char) :=
  match cs with
  | 'n' :: rest => (afterWord? "ull".toList rest).map (.null, ·)
  | 't' :: rest => (afterWord? "rue".toList rest).map (.bool true, ·)
  | 'f' :: rest => (afterWord? "alse".toList rest).map (.bool false, ·)
  | 'N' :: rest => (afterWord? "aN".toList rest).map (.float (0.0 / 0.0), ·)
  | 'I' :: rest => (afterWord? "nfinity".toList rest).map (.float (1.0 / 0.0), ·)
  | '-' :: 'I' :: rest => (afterWord? "nfinity".toList rest).map (.float (-1.0 / 0.0), ·)
  | '-' :: rest => scanNumber true rest
  | _ => scanNumber false cs

/-! ## §2 Values -/

def orMalformed {α : Type} : Option α → Except ReadFault α
  | some a => .ok a
  | none => .error .malformed

mutual

/-- The value at the start of the text, and the rest. -/
def readValue : (fuel depth : Nat) → List Char → Except ReadFault (Value × List Char)
  | 0, _, _ => .error .malformed
  | fuel + 1, depth, cs =>
    match cs with
    | '"' :: rest => do
      let (s, rest) ← orMalformed (scanText (fuel + 1) [] rest)
      .ok (.text s, rest)
    | '[' :: rest =>
      if depth = 0 then .error .tooDeep
      else match skipGap rest with
        | ']' :: rest => .ok (.list [], rest)
        | rest => do
          let (items, rest) ← readItems fuel (depth - 1) [] rest
          .ok (.list items, rest)
    | '\x7b' :: rest =>
      if depth = 0 then .error .tooDeep
      else match skipGap rest with
        | '\x7d' :: rest => .ok (.object [], rest)
        | rest => do
          let (fields, rest) ← readFields fuel (depth - 1) [] rest
          .ok (.object fields, rest)
    | cs => orMalformed (scanAtom cs)

/-- The items of a list from the first to the closing bracket, newest first in `done`. -/
def readItems : (fuel depth : Nat) → (done : List Value) → List Char →
    Except ReadFault (List Value × List Char)
  | 0, _, _, _ => .error .malformed
  | fuel + 1, depth, done, cs => do
    let (item, rest) ← readValue fuel depth cs
    match skipGap rest with
    | ']' :: rest => .ok ((item :: done).reverse, rest)
    | ',' :: rest => readItems fuel depth (item :: done) (skipGap rest)
    | _ => .error .malformed

/-- The fields of an object from the first to the closing brace. -/
def readFields : (fuel depth : Nat) → (done : List (String × Value)) → List Char →
    Except ReadFault (List (String × Value) × List Char)
  | 0, _, _, _ => .error .malformed
  | fuel + 1, depth, done, cs =>
    match cs with
    | '"' :: rest => do
      let (name, rest) ← orMalformed (scanText (fuel + 1) [] rest)
      match skipGap rest with
      | ':' :: rest =>
        let (value, rest) ← readValue fuel depth (skipGap rest)
        let done := Table.set done name value
        match skipGap rest with
        | '\x7d' :: rest => .ok (done, rest)
        | ',' :: rest => readFields fuel depth done (skipGap rest)
        | _ => .error .malformed
      | _ => .error .malformed
    | _ => .error .malformed

end

/-- Reads a payload that fills the whole text. Every step takes at least one character, so twice the
length of the text leaves enough fuel for every text in it too. -/
def read (source : String) : Except ReadFault Value := do
  let cs := source.toList
  let (value, rest) ← readValue (2 * cs.length + 2) maxReadDepth (skipGap cs)
  if (skipGap rest).isEmpty then .ok value else .error .malformed

end BusinessCase.Value
