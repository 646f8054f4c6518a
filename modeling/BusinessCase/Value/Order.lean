/-
BusinessCase.Value.Order — payload values in numeric order.

Numbers of both kinds are compared exactly, and truth values count as zero and
one. A value of any other kind has no place among numbers, and what is no
number stands in no order to anything.

  §1 Places     — `Mark`, the place of a number on the line.
  §2 Comparison — `Value.below?`, `Value.atMost?`.
-/
import BusinessCase.Value

namespace BusinessCase

/-! ## §1 Places -/

/-- The place of a number on the extended line. -/
inductive Mark where
  | least
  /-- The quotient `num / den`; `den` is not zero. -/
  | quotient (num : Int) (den : Nat)
  | greatest

def Mark.compare : Mark → Mark → Ordering
  | least, least | greatest, greatest => .eq
  | least, _ | _, greatest => .lt
  | _, least | greatest, _ => .gt
  | quotient a b, quotient c d => Ord.compare (a * d) (c * b)

/-- The place of a double; what is no number has none. -/
def Mark.ofFloat? (x : Float) : Option Mark :=
  match Decimal.decode x with
  | .notANumber => none
  | .infinite negative => some (if negative then least else greatest)
  | .finite d =>
    let num : Int := d.ratio.1
    some (quotient (if d.negative then -num else num) d.ratio.2)

namespace Value

/-- Is the value a number or a truth value, so that it can be compared with numbers? -/
def isComparable : Value → Bool
  | int _ | float _ | bool _ => true
  | null | text _ | list _ | object _ => false

def mark? : Value → Option Mark
  | int n => some (.quotient n 1)
  | bool b => some (.quotient (if b then 1 else 0) 1)
  | float x => Mark.ofFloat? x
  | null | text _ | list _ | object _ => none

/-! ## §2 Comparison -/

/-- Does the order of two values satisfy `p`? Nothing where one of them cannot be compared; values
without order satisfy nothing. -/
def ordered? (p : Ordering → Bool) (a b : Value) : Option Bool :=
  if a.isComparable && b.isComparable then
    some (match a.mark?, b.mark? with
      | some a, some b => p (a.compare b)
      | _, _ => false)
  else none

def below? (a b : Value) : Option Bool := ordered? (· == .lt) a b

def atMost? (a b : Value) : Option Bool := ordered? (· != .gt) a b

end Value

end BusinessCase
