/-
BusinessCase.Scalar.ExactSum — a sum of doubles that is rounded once.

The sum so far is kept as partial sums without common bits, least first; each
new term is pushed through them, leaving behind what rounding cuts off. Adding
the partial sums from the greatest down then rounds once, with a correction
where the cut falls on a half.
-/
import BusinessCase.Scalar

namespace BusinessCase.ExactSum

/-- The rounded sum of two doubles and what rounding cut off, which is exact because the addend
that is smaller in size is taken off last. -/
def twoSum (x y : Float) : Float × Float :=
  let (x, y) := if x.abs < y.abs then (y, x) else (x, y)
  let high := x + y
  (high, y - (high - x))

/-- Pushes a term through the partial sums, least first. The remainders that are not zero stay, and
the rounded sum of all comes out last. -/
def push (x : Float) : List Float → List Float × Float
  | [] => ([], x)
  | y :: rest =>
    let (high, low) := twoSum x y
    let (kept, last) := push high rest
    (if low != 0.0 then low :: kept else kept, last)

/-- The state of a sum: partial sums of the finite terms, and the sum of the other terms. -/
structure State where
  partials : List Float := []
  special : Float := 0.0

/-- Adds one term. An infinite sum out of a finite term is an overflow; any other term that is not
finite is kept apart, and what was summed before it no longer matters. -/
def State.add (s : State) (x : Float) : Except ArithmeticError State :=
  let (kept, last) := push x s.partials
  if last == 0.0 then .ok { s with partials := kept }
  else if last.isFinite then .ok { s with partials := kept ++ [last] }
  else if x.isFinite then .error .overflow
  else .ok { partials := [], special := s.special + x }

/-- Adds partial sums, greatest first, until rounding cuts something off. Answers the sum, what was
cut off, and the partial sums that are left. -/
def collapse (high : Float) : List Float → Float × Float × List Float
  | [] => (high, 0.0, [])
  | y :: rest =>
    let sum := high + y
    let low := y - (sum - high)
    if low != 0.0 then (sum, low, rest) else collapse sum rest

/-- Rounds a half the way the partial sums below it point. -/
def roundHalf (high low : Float) (below : List Float) : Float :=
  match below with
  | [] => high
  | next :: _ =>
    if (low < 0.0 && next < 0.0) || (low > 0.0 && next > 0.0) then
      let twice := low * 2.0
      let moved := high + twice
      if twice == moved - high then moved else high
    else high

/-- The sum of the state, rounded once. -/
def State.total (s : State) : Except ArithmeticError Float :=
  if s.special != 0.0 then
    if s.special.isNaN then .error .oppositeInfinities else .ok s.special
  else
    match s.partials.reverse with
    | [] => .ok 0.0
    | high :: rest =>
      let (sum, low, below) := collapse high rest
      .ok (roundHalf sum low below)

/-- The sum of a list without no-number terms. -/
def sum (xs : List Float) : Except ArithmeticError Float := do
  let final ← xs.foldlM State.add {}
  final.total

end BusinessCase.ExactSum
