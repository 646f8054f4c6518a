/-
BusinessCase.Decimal.Shortest — the fewest digits that read back.

`shortest` finds, among the decimals that round to a given positive dyadic
number, one with the fewest digits, and of those the one next to the number.
For each digit count the only two candidates are the neighbours of the number
on that decimal grid, so seventeen grids at most are probed.

  §1 Decimal exponent — `leadingExponent`.
  §2 Search           — `shortest`.
  §3 Text             — `Layout`, `exact`.
-/
import BusinessCase.Decimal.Binary64

namespace BusinessCase.Decimal

/-! ## §1 Decimal exponent -/

/-- Is `num / den` at least `10 ^ e`? -/
def reaches (num den : Nat) (e : Int) : Bool :=
  if e < 0 then decide (den ≤ num * Nat.pow 10 e.natAbs)
  else decide (Nat.pow 10 e.natAbs * den ≤ num)

/-- Steps the exponent up while the next power of ten is still reached. -/
def climb (num den : Nat) : Nat → Int → Int
  | 0, e => e
  | steps + 1, e => if reaches num den (e + 1) then climb num den steps (e + 1) else e

/-- The `e` with `10 ^ e ≤ num / den < 10 ^ (e + 1)`, from the binary lengths and a few steps up. -/
def leadingExponent (num den : Nat) : Int :=
  let binary : Int := (Nat.log2 num : Int) - (Nat.log2 den : Int)
  climb num den 5 (((binary - 1) * 30103).fdiv 100000 - 1)

/-! ## §2 Search -/

/-- A positive number with the ends of the interval of reals that round to it, all three as
numerators over one denominator; the ends belong to it when `closed`. -/
structure Window where
  low : Nat
  value : Nat
  high : Nat
  den : Nat
  closed : Bool

/-- The rounding interval of a double: half a unit up, and half a unit down, or a quarter where
the unit below a power of two is smaller. -/
def Dyadic.window (d : Dyadic) : Window :=
  let unit := d.exponent - 2
  let factor := if unit < 0 then 1 else Nat.pow 2 unit.natAbs
  let den := if unit < 0 then Nat.pow 2 unit.natAbs else 1
  let below := if d.significand = hiddenBit ∧ -1074 < d.exponent then 1 else 2
  { low := (4 * d.significand - below) * factor
    value := 4 * d.significand * factor
    high := (4 * d.significand + 2) * factor
    den := den
    closed := d.significand % 2 == 0 }

/-- Does the point `p / den` round to the number? -/
def Window.contains (w : Window) (p : Nat) : Bool :=
  if w.closed then w.low ≤ p && p ≤ w.high else w.low < p && p < w.high

/-- The window with all numerators and the denominator stretched so that `10 ^ scale` is a whole
number of units; with it that number of units. -/
def Window.onGrid (w : Window) (scale : Int) : Window × Nat :=
  if scale < 0 then
    let stretch := Nat.pow 10 scale.natAbs
    ({ w with low := w.low * stretch, value := w.value * stretch, high := w.high * stretch }, w.den)
  else (w, w.den * Nat.pow 10 scale.natAbs)

/-- The neighbour of the number on the grid of multiples of `10 ^ scale` that rounds to it, the
nearer one where both do. -/
def Window.probe (w : Window) (scale : Int) : Option Nat :=
  let (grid, unit) := w.onGrid scale
  let below := grid.value / unit
  match grid.contains (below * unit), grid.contains ((below + 1) * unit) with
  | true, true => some (roundDiv grid.value unit)
  | true, false => some below
  | false, true => some (below + 1)
  | false, false => none

/-- `(digits, scale)` such that `digits · 10 ^ scale` reads back as the number, with the fewest
digits. -/
def Dyadic.shortest (d : Dyadic) : Nat × Int :=
  let w := d.window
  let lead := leadingExponent w.value w.den
  let attempt (count : Nat) : Option (Nat × Int) :=
    let scale := lead - count
    (w.probe scale).map (·, scale)
  ((List.range 17).findSome? attempt).getD (0, 0)

/-! ## §3 Text -/

def significantDigits (n : Nat) : List Char :=
  ((Nat.toDigits 10 n).reverse.dropWhile (· == '0')).reverse

/-- Sign and at least two digits. -/
def exponentText (e : Int) : String :=
  let digits := Nat.toDigits 10 e.natAbs
  (if e < 0 then "-" else "+") ++
    String.ofList (List.replicate (2 - digits.length) '0' ++ digits)

/-- When a number is written with its point in place, and when with an exponent. -/
structure Layout where
  /-- Least decimal exponent written without an exponent. -/
  least : Int
  /-- Least decimal exponent from which on an exponent is written again. -/
  beyond : Int

/-- Numbers from a ten-thousandth to below ten quadrillion are written in full. -/
def Layout.plain : Layout := ⟨-4, 16⟩

/-- Digits with the point after the digit of weight one. -/
def positional (digits : List Char) (lead : Int) : List Char :=
  if lead < 0 then '0' :: '.' :: (List.replicate (lead.natAbs - 1) '0' ++ digits)
  else
    let whole := lead.toNat + 1
    let padded := digits ++ List.replicate (whole - digits.length) '0'
    let fraction := padded.drop whole
    padded.take whole ++ '.' :: (if fraction.isEmpty then ['0'] else fraction)

/-- One digit, the point and the others if there are any, then the exponent. -/
def withExponent (digits : List Char) (lead : Int) : List Char :=
  let mantissa := match digits with
    | [] => ['0']
    | [d] => [d]
    | d :: rest => d :: '.' :: rest
  mantissa ++ 'e' :: (exponentText lead).toList

def Layout.write (layout : Layout) (digits : Nat) (scale : Int) : List Char :=
  let all := Nat.toDigits 10 digits
  let lead := scale + all.length - 1
  let kept := significantDigits digits
  if layout.least ≤ lead && lead < layout.beyond then positional kept lead
  else withExponent kept lead

/-- The exact text of a double: the fewest digits that read back, always with a point or an
exponent, so that it never looks like a whole number. -/
def exact (x : Float) : String :=
  match decode x with
  | .notANumber => "nan"
  | .infinite negative => if negative then "-inf" else "inf"
  | .finite d =>
    let body := if d.significand = 0 then ['0', '.', '0']
      else Layout.plain.write d.shortest.1 d.shortest.2
    String.ofList (if d.negative then '-' :: body else body)

end BusinessCase.Decimal
