/-
BusinessCase.Statistics.Correlation — how closely two series move together.

Pearson's coefficient of the pairs in which both entries are numbers. It is
zero where it has no meaning: for series of different length, for fewer than
two pairs, and where one of the series does not change.
-/
import BusinessCase.Statistics.Moments

namespace BusinessCase

open Scalar

variable {α : Type} [Scalar α]

/-- The pairs of numbers of two series. -/
def knownPairs (xs ys : List α) : List (α × α) :=
  (xs.zip ys).filter fun pair => !isNaN pair.1 && !isNaN pair.2

def range : List α → α
  | [] => nat 0
  | x :: rest => greatest x rest - least x rest

/-- How far the numbers of a list lie from their mean. -/
def centered (xs : List α) : List α :=
  let center := meanOf xs
  xs.map (· - center)

/-- The length of a list as a vector. The largest entry is divided out first, so that squares stay
in range. -/
def vectorLength (xs : List α) : α :=
  match xs.map Scalar.abs with
  | [] => nat 0
  | size :: sizes =>
    let largest := greatest size sizes
    let scaled := xs.map (· / largest)
    largest * sqrt (sumPairwise (scaled.map fun x => x * x))

/-- The cosine of the angle between two lists as vectors. Both are brought to length one before they
are multiplied. -/
def alignment (xs ys : List α) : α :=
  let xLength := vectorLength xs
  let yLength := vectorLength ys
  sumPairwise (List.zipWith (fun x y => (x / xLength) * (y / yLength)) xs ys)

def clip (r : α) : α :=
  if lt r (-(nat 1)) then -(nat 1) else if lt (nat 1) r then nat 1 else r

/-- The nearest of minus one, zero and one. -/
def roundSign (r : α) : α :=
  if lt (decimal 5 1) r then nat 1
  else if lt r (-(decimal 5 1)) then -(nat 1)
  else nat 0

/-- Pearson's coefficient of pairs in which both series change. Two pairs lie on a line, so their
coefficient is a whole number. -/
def coefficient (xs ys : List α) : α :=
  let r := clip (alignment (centered xs) (centered ys))
  if isNaN r then nat 0 else if xs.length = 2 then roundSign r else r

def correlation (xs ys : List α) : α :=
  if xs.length ≠ ys.length then nat 0
  else
    let pairs := knownPairs xs ys
    let xs := pairs.map Prod.fst
    let ys := pairs.map Prod.snd
    if pairs.length < 2 || eq (range xs) (nat 0) || eq (range ys) (nat 0) then nat 0
    else coefficient xs ys

end BusinessCase
