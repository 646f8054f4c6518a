/-
BusinessCase.Random.Entropy — the seed of a run as it was given.

A seed is a whole number, or a list of whole numbers, which may be written as
texts and may stand in lists themselves; the words of all of them are strung
together. Without a seed a run draws from chance.
-/
import BusinessCase.Random.Permuted
import BusinessCase.Value.Reader
import BusinessCase.Value.Shown
import BusinessCase.Value.Whole

namespace BusinessCase.Seed

/-- Why a value is no seed. -/
inductive SeedFault where
  | negative
  /-- The value, or a part of it, is of a kind that no seed has. -/
  | kind
  /-- The value is of such a kind, and too long to be shown. -/
  | notShown
  /-- A text in a list is not the spelling of a whole number. -/
  | numeral (fault : NumeralFault)
  /-- A text in a list does not even start like a whole number. -/
  | unrecognized

/-- The words of a whole number that is not negative. -/
def wordsOfInt (n : Int) : Except SeedFault (List UInt32) :=
  if n < 0 then .error .negative else .ok (words n.toNat)

/-- The value of hexadecimal digits. Underscores may stand between them and before the first. -/
def hexNumber? (cs : List Char) : Option Nat := do
  let digits ← Decimal.joinDigits (fun c => (Value.hexValue? c).isSome) true cs
  if digits.isEmpty then none
  else digits.foldlM (fun n c => (Value.hexValue? c).map (16 * n + ·)) 0

/-- The words of a text in a list: a decimal number, or a hexadecimal one behind `0x`. -/
def wordsOfText (text : String) : Except SeedFault (List UInt32) :=
  match text.toList with
  | '0' :: 'x' :: _ => match hexNumber? ((Decimal.plainSpelling text).drop 2) with
    | some n => .ok (words n)
    | none => .error (.numeral (.hexadecimal text))
  | c :: _ =>
    if c.isDigit then match Decimal.readInt text with
      | .ok n => wordsOfInt n
      | .error fault => .error (.numeral (.integer text fault))
    else .error .unrecognized
  | [] => .error .unrecognized

mutual

def partWords : Value → Except SeedFault (List UInt32)
  | .int n => wordsOfInt n
  | .bool b => .ok (words (if b then 1 else 0))
  | .text s => wordsOfText s
  | .list items => partsWords items
  | .object fields => namesWords fields
  | .null | .float _ => .error .kind

def partsWords : List Value → Except SeedFault (List UInt32)
  | [] => .ok []
  | item :: rest => do
    let own ← partWords item
    let others ← partsWords rest
    .ok (own ++ others)

def namesWords : List (String × Value) → Except SeedFault (List UInt32)
  | [] => .ok []
  | (name, _) :: rest => do
    let own ← wordsOfText name
    let others ← namesWords rest
    .ok (own ++ others)

end

/-- The words of a seed; nothing where the seed is left to chance. -/
def wordsOf? : Value → Except SeedFault (Option (List UInt32))
  | .null => .ok none
  | .int n => (wordsOfInt n).map some
  | .bool b => .ok (some (words (if b then 1 else 0)))
  | .list items => (partsWords items).map some
  | .text _ | .float _ => .error .kind
  | .object fields => .error (if Value.fieldsShown fields then .kind else .notShown)

end BusinessCase.Seed
