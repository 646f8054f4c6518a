/-
BusinessCase.Decimal.Binary64 — doubles as exact dyadic numbers, and back.

`decode` splits a double into sign, significand and binary exponent;
`nearest` rounds an exact quotient to the double next to it. Every decimal
text of the library, written or read, goes through this pair, so no digit
depends on a platform's own number printing.

  §1 Rounding   — `roundDiv`, the quotient rounded to nearest, ties to even.
  §2 Decoding   — `Dyadic`, `decode`.
  §3 Encoding   — `nearest`, `nearestInt`, `powNat`.
-/

namespace BusinessCase.Decimal

/-! ## §1 Rounding -/

/-- The whole number nearest to `num / den`; a half goes to the even neighbour. -/
def roundDiv (num den : Nat) : Nat :=
  let quotient := num / den
  let remainder := num % den
  if 2 * remainder < den then quotient
  else if den < 2 * remainder then quotient + 1
  else if quotient % 2 = 0 then quotient else quotient + 1

/-! ## §2 Decoding -/

/-- The leading bit of a significand of full length, which is not stored: the 52nd power of two. -/
def hiddenBit : Nat := 0x10000000000000

/-- The bit that holds the sign: the 63rd power of two. -/
def signBit : Nat := 0x8000000000000000

/-- The number `± significand · 2 ^ exponent`. -/
structure Dyadic where
  negative : Bool
  significand : Nat
  exponent : Int

/-- What a double stands for. -/
inductive Decoded where
  | notANumber
  | infinite (negative : Bool)
  | finite (value : Dyadic)

/-- The sign, exponent and fraction fields of a double, read as a number. -/
def decode (x : Float) : Decoded :=
  let bits := x.toBits.toNat
  let negative := decide (signBit ≤ bits)
  let biased : Nat := bits / hiddenBit % 2048
  let fraction := bits % hiddenBit
  if biased = 2047 then
    if fraction = 0 then .infinite negative else .notANumber
  else if biased = 0 then .finite ⟨negative, fraction, -1074⟩
  else .finite ⟨negative, hiddenBit + fraction, (biased : Int) - 1075⟩

/-- The absolute value as a quotient of natural numbers. -/
def Dyadic.ratio (d : Dyadic) : Nat × Nat :=
  if d.exponent < 0 then (d.significand, Nat.pow 2 d.exponent.natAbs)
  else (d.significand * Nat.pow 2 d.exponent.natAbs, 1)

/-! ## §3 Encoding -/

/-- The double whose bit pattern is `bits`, with the given sign. -/
def ofPattern (negative : Bool) (bits : Nat) : Float :=
  Float.ofBits (UInt64.ofNat (if negative then signBit + bits else bits))

/-- Bit pattern of positive infinity; every smaller pattern is finite. -/
def infinityPattern : Nat := 2047 * hiddenBit

/--
The double nearest to `± num / den`, ties to the even significand; beyond the
largest finite double the answer is infinite. The exponent `q` is chosen so
that the significand has 53 bits, or fewer when `q` is already the least one;
a significand that rounds up to `2 ^ 53` carries into the exponent field by
itself.
-/
def nearest (negative : Bool) (num den : Nat) : Float :=
  if num = 0 then ofPattern negative 0
  else
    let guess : Int := (Nat.log2 num : Int) - (Nat.log2 den : Int) - 53
    let scaled (q : Int) : Nat × Nat :=
      if q < 0 then (num * Nat.pow 2 q.natAbs, den) else (num, den * Nat.pow 2 q.natAbs)
    let wide := scaled guess
    let tight : Int := if 2 * hiddenBit ≤ wide.1 / wide.2 then guess + 1 else guess
    let q : Int := if tight < -1074 then -1074 else tight
    if 972 < q then ofPattern negative infinityPattern
    else
      let parts := scaled q
      let pattern := (q + 1074).toNat * hiddenBit + roundDiv parts.1 parts.2
      ofPattern negative (if infinityPattern ≤ pattern then infinityPattern else pattern)

def nearestInt (n : Int) : Float := nearest (decide (n < 0)) n.natAbs 1

/-- `x ^ n`, rounded once; the usual conventions for NaN, infinities and zeros. -/
def powNat (x : Float) (n : Nat) : Float :=
  if n = 0 then 1.0
  else
    match decode x with
    | .notANumber => x
    | .infinite negative => ofPattern (negative && n % 2 == 1) infinityPattern
    | .finite d =>
      let negative := d.negative && n % 2 == 1
      if d.significand = 0 then ofPattern negative 0
      else
        let magnitude := (Nat.log2 d.significand : Int) + d.exponent
        if 1100 < magnitude * n then ofPattern negative infinityPattern
        else if (magnitude + 1) * n < -1200 then ofPattern negative 0
        else
          let (num, den) := d.ratio
          nearest negative (Nat.pow num n) (Nat.pow den n)

end BusinessCase.Decimal
