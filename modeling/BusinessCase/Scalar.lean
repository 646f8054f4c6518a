/-
BusinessCase.Scalar — the arithmetic that the numeric rules are written over.

Formulas, sampling, cash flows and statistics use only the operations of
`Scalar`. Doubles have them with rounding; other instances may have them
without, so that a rule can be studied in exact arithmetic. An operation that
is not defined everywhere has a checked form here, which says why it has no
answer.

  §1 Errors     — `ArithmeticError`.
  §2 Class      — `Scalar`.
  §3 Checked    — division, logarithm, root, cosine and powers.
  §4 Sums       — from the left, and the least and greatest of a list.
-/

namespace BusinessCase

/-! ## §1 Errors -/

/-- Why an arithmetic step has no answer. -/
inductive ArithmeticError where
  /-- The answer is beyond the largest finite number. -/
  | overflow
  | divisionByZero
  /-- The argument is outside the domain of the function. -/
  | outsideDomain
  /-- A sum holds both infinities. -/
  | oppositeInfinities
  /-- A negative number has no real power with a fraction in the exponent. -/
  | notReal
  deriving DecidableEq

/-! ## §2 Class -/

/-- Numbers with the operations of the numeric rules. -/
class Scalar (α : Type) extends Add α, Sub α, Mul α, Div α, Neg α where
  nat : Nat → α
  /-- `decimal m k` is `m / 10 ^ k`. -/
  decimal : Nat → Nat → α
  nan : α
  pi : α
  euler : α
  isNaN : α → Bool
  isInfinite : α → Bool
  eq : α → α → Bool
  lt : α → α → Bool
  le : α → α → Bool
  abs : α → α
  sqrt : α → α
  log : α → α
  cos : α → α
  power : α → α → α
  powNat : α → Nat → α
  /-- The whole part of a number that is not negative. -/
  wholePart : α → Nat
  /-- The sum of a list, rounded once. -/
  exactSum : List α → Except ArithmeticError α

namespace Scalar

variable {α : Type} [Scalar α]

/-- Neither infinite nor no number. -/
def isFinite (x : α) : Bool := !isNaN x && !isInfinite x

/-! ## §3 Checked -/

/-- `x / y` for `y` other than zero. -/
def divide (x y : α) : Except ArithmeticError α :=
  if eq y (nat 0) then .error .divisionByZero else .ok (x / y)

def logarithm (x : α) : Except ArithmeticError α :=
  if le x (nat 0) then .error .outsideDomain else .ok (log x)

def root (x : α) : Except ArithmeticError α :=
  if lt x (nat 0) then .error .outsideDomain else .ok (sqrt x)

def cosine (x : α) : Except ArithmeticError α :=
  if isInfinite x then .error .outsideDomain else .ok (cos x)

/-- `x ^ n`, which overflows where a finite `x` gives an infinite power. -/
def powerNat (x : α) (n : Nat) : Except ArithmeticError α :=
  let y := powNat x n
  if isInfinite y && !isInfinite x then .error .overflow else .ok y

def isWhole (x : α) : Bool := eq (nat (wholePart (Scalar.abs x))) (Scalar.abs x)

/-- Is `x ^ y` no real number? -/
def leavesReals (x y : α) : Bool := lt x (nat 0) && isFinite x && isFinite y && !isWhole y

/-- `x ^ y`, which overflows where finite arguments give an infinite power, also one that is no real
number. -/
def powerOf (x y : α) : Except ArithmeticError α :=
  let z := power (if leavesReals x y then Scalar.abs x else x) y
  if isInfinite z && isFinite x && isFinite y then .error .overflow
  else if leavesReals x y then .error .notReal
  else .ok z

/-! ## §4 Sums -/

/-- The sum of a list, added up from the left and from zero. -/
def sumLeft (xs : List α) : α := xs.foldl (· + ·) (nat 0)

/-- The first least number of a list that starts with `x`. -/
def least (x : α) (xs : List α) : α := xs.foldl (fun best y => if lt y best then y else best) x

/-- The first greatest number of a list that starts with `x`. -/
def greatest (x : α) (xs : List α) : α := xs.foldl (fun best y => if lt best y then y else best) x

end Scalar

end BusinessCase
