/-
BusinessCase.Text.Encoding — the text that bytes of a request spell.

A payload comes as bytes, and nothing says in which encoding. A payload starts
with two characters of the first 128, so the zeros among the first bytes tell
the width of a unit and which of its bytes comes first. Halves of pairs may
stand alone in the wider encodings.

  §1 Encodings — `Encoding`, `Encoding.detect`.
  §2 Units     — bytes to units, units to code points.
  §3 Whole     — `decoded?`.
-/
import BusinessCase.Text.Surrogate

namespace BusinessCase.Text

/-! ## §1 Encodings -/

/-- Units of one, two or four bytes, in the two wider ones with the high byte first or last. -/
inductive Encoding where
  | bytes
  | pairs (highFirst : Bool)
  | quads (highFirst : Bool)
  deriving DecidableEq

/-- The encoding of a payload, told by the zeros among its first bytes. -/
def Encoding.detect : List Nat → Encoding
  | a :: b :: c :: d :: _ =>
    if a = 0 then (if b = 0 then quads true else pairs true)
    else if b = 0 then (if c = 0 && d = 0 then quads false else pairs false)
    else bytes
  | [a, b] => if a = 0 then pairs true else if b = 0 then pairs false else bytes
  | _ => bytes

/-! ## §2 Units -/

/-- The number that bytes spell, the high byte first or last. -/
def unitOf (highFirst : Bool) (bytes : List Nat) : Nat :=
  (if highFirst then bytes else bytes.reverse).foldl (fun n byte => 256 * n + byte) 0

/-- The units of two bytes; an odd byte at the end is an error. -/
def pairUnits? (highFirst : Bool) : List Nat → Option (List Nat)
  | [] => some []
  | a :: b :: rest => (pairUnits? highFirst rest).map (unitOf highFirst [a, b] :: ·)
  | _ => none

/-- The units of four bytes; bytes that are left over at the end are an error. -/
def quadUnits? (highFirst : Bool) : List Nat → Option (List Nat)
  | [] => some []
  | a :: b :: c :: d :: rest =>
    (quadUnits? highFirst rest).map (unitOf highFirst [a, b, c, d] :: ·)
  | _ => none

/-- The code points of units, two halves that stand together being one. -/
def joinUnits : List Nat → List Nat
  | high :: low :: rest =>
    if isHighSurrogate high && isLowSurrogate low then joinPair high low :: joinUnits rest
    else high :: joinUnits (low :: rest)
  | [unit] => [unit]
  | [] => []

/-- Units that are code points; numbers beyond the last one are an error. -/
def wideCodes? (units : List Nat) : Option (List Nat) :=
  if units.all (· ≤ lastCode) then some units else none

def ofCodes (codes : List Nat) : String := String.ofList (codes.flatMap ofCode)

/-! ## §3 Whole -/

/-- The characters without a mark of byte order in front. -/
def withoutOrderMark : List Char → List Char
  | '\ufeff' :: rest => rest
  | cs => cs

/-- The bytes of a text in units of one byte. -/
def bytesOf (text : String) : List Nat :=
  let chars := (codes text.toList).map Char.ofNat
  (String.ofList chars).toUTF8.toList.map UInt8.toNat

/-- The text that the bytes of a given text spell, once their encoding has been told from the first
of them; nothing where they spell no text in it. -/
def decoded? (text : String) : Option String :=
  let bytes := bytesOf text
  match Encoding.detect bytes with
  | .bytes => some (String.ofList (withoutOrderMark text.toList))
  | .pairs highFirst => (pairUnits? highFirst bytes).map fun units => ofCodes (joinUnits units)
  | .quads highFirst => ((quadUnits? highFirst bytes).bind wideCodes?).map ofCodes

end BusinessCase.Text
