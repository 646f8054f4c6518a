/-
BusinessCase.Scalar.Binary64 — doubles as numbers of the numeric rules.
-/
import BusinessCase.Decimal.Numeral
import BusinessCase.Scalar.ExactSum

namespace BusinessCase

/-- Doubles, each operation rounded to nearest. Whole powers and decimals are rounded once from
their exact values. -/
instance : Scalar Float where
  nat n := if n < Decimal.hiddenBit then Float.ofNat n else Decimal.nearest false n 1
  decimal m k := Decimal.nearest false m (Nat.pow 10 k)
  nan := 0.0 / 0.0
  pi := 3.141592653589793
  euler := 2.718281828459045
  isNaN := Float.isNaN
  isInfinite := Float.isInf
  eq x y := x == y
  lt x y := decide (x < y)
  le x y := decide (x ≤ y)
  abs := Float.abs
  sqrt := Float.sqrt
  log := Float.log
  cos := Float.cos
  power := Float.pow
  powNat := Decimal.powNat
  wholePart x := match Decimal.decode x with
    | .finite d => d.ratio.1 / d.ratio.2
    | _ => 0
  exactSum := ExactSum.sum

end BusinessCase
