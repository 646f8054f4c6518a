/-
BusinessCase.Statistics.Moments — mean and spread of samples.

Samples that are no number are left out. Sums are formed pairwise: long lists
are split in two, and short ones added up in eight lanes, which keeps rounding
small whatever the length.
-/
import BusinessCase.Scalar

namespace BusinessCase

open Scalar

variable {α : Type} [Scalar α]

/-- The samples that are numbers. -/
def known (samples : List α) : List α := samples.filter fun x => !isNaN x

/-! ## Pairwise sums -/

def addLanes (lanes xs : List α) : List α := List.zipWith (· + ·) lanes xs

/-- Adds groups of eight to the lanes while there is a whole group; answers the lanes and what is
left. -/
def fillLanes (lanes xs : List α) : List α × List α :=
  if _whole : 8 ≤ xs.length then fillLanes (addLanes lanes (xs.take 8)) (xs.drop 8)
  else (lanes, xs)
termination_by xs.length
decreasing_by
  rw [List.length_drop]
  omega

/-- The sum of eight lanes, neighbours first. -/
def sumLanes : List α → α
  | [a, b, c, d, e, f, g, h] => ((a + b) + (c + d)) + ((e + f) + (g + h))
  | lanes => sumLeft lanes

/-- The sum of at most 128 numbers. -/
def sumBlock (xs : List α) : α :=
  if xs.length < 8 then sumLeft xs
  else
    let (lanes, rest) := fillLanes (xs.take 8) (xs.drop 8)
    rest.foldl (· + ·) (sumLanes lanes)

/-- Where a long list is split: in the middle, at a multiple of eight. -/
def splitPoint (n : Nat) : Nat := n / 2 - n / 2 % 8

/-- The sum of a list of any length. -/
def sumPairwise (xs : List α) : α :=
  if _long : 128 < xs.length then
    let middle := splitPoint xs.length
    sumPairwise (xs.take middle) + sumPairwise (xs.drop middle)
  else sumBlock xs
termination_by xs.length
decreasing_by
  · simp only [List.length_take, splitPoint]
    omega
  · simp only [List.length_drop, splitPoint]
    omega

/-! ## Moments -/

def meanOf (xs : List α) : α := sumPairwise xs / nat xs.length

/-- The mean of samples; zero where there are none. -/
def mean (samples : List α) : α :=
  let xs := known samples
  if xs.isEmpty then nat 0 else meanOf xs

/-- The standard deviation of samples as an estimate from a part, so with one less than their count;
zero where there are fewer than two. -/
def deviation (samples : List α) : α :=
  let xs := known samples
  if xs.length ≤ 1 then nat 0
  else
    let center := meanOf xs
    let squares := xs.map fun x => (x - center) * (x - center)
    sqrt (sumPairwise squares / nat (xs.length - 1))

end BusinessCase
