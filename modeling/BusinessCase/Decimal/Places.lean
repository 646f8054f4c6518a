/-
BusinessCase.Decimal.Places — a double to a given number of places.

`scientific` keeps one digit before the point and an exponent, `fixed` keeps
the point where it is. Both round the exact binary value, a half to the even
neighbour.
-/
import BusinessCase.Decimal.Shortest

namespace BusinessCase.Decimal

/-- At least `width` digits, padded with zeros in front. -/
def paddedDigits (width n : Nat) : List Char :=
  let digits := Nat.toDigits 10 n
  List.replicate (width - digits.length) '0' ++ digits

/-- `num / den · 10 ^ shift`, rounded. -/
def roundScaled (num den : Nat) (shift : Int) : Nat :=
  if shift < 0 then roundDiv num (den * Nat.pow 10 shift.natAbs)
  else roundDiv (num * Nat.pow 10 shift.natAbs) den

/-- Digits of the mantissa with `places` of them after the point, and the exponent; a mantissa
that rounds up to ten moves the exponent. -/
def mantissa (num den places : Nat) : Nat × Int :=
  let lead := leadingExponent num den
  let digits := roundScaled num den (places - lead)
  if digits = Nat.pow 10 (places + 1) then (Nat.pow 10 places, lead + 1) else (digits, lead)

def withoutDigits : Decoded → Option String
  | .notANumber => some "nan"
  | .infinite negative => some (if negative then "-inf" else "inf")
  | .finite _ => none

/-- One digit, `places` digits after the point, and an exponent; zero has no sign. -/
def scientific (places : Nat) (x : Float) : String :=
  match decode x with
  | .finite d =>
    let (num, den) := d.ratio
    let (digits, exponent) := if num = 0 then (0, 0) else mantissa num den places
    let text := paddedDigits (places + 1) digits
    let sign := if d.negative && num != 0 then ['-'] else []
    let mantissa := text.take 1 ++ '.' :: text.drop 1
    String.ofList (sign ++ mantissa ++ 'e' :: (exponentText exponent).toList)
  | other => (withoutDigits other).getD ""

/-- The point in place and `places` digits after it; what rounds to zero has no sign. -/
def fixed (places : Nat) (x : Float) : String :=
  match decode x with
  | .finite d =>
    let (num, den) := d.ratio
    let digits := roundScaled num den places
    let text := paddedDigits (places + 1) digits
    let whole := text.length - places
    let sign := if d.negative && digits != 0 then ['-'] else []
    String.ofList (sign ++ text.take whole ++ '.' :: text.drop whole)
  | other => (withoutDigits other).getD ""

end BusinessCase.Decimal
