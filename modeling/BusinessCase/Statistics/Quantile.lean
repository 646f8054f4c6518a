/-
BusinessCase.Statistics.Quantile — values below which a share of the samples lies.

The quantile of a share `q` of `n` sorted samples stands at place `(n - 1) q`,
counted from zero; between two places it lies on the straight line. The line
is followed from the nearer end, which keeps it within the two samples.
-/
import BusinessCase.Statistics.Moments

namespace BusinessCase

open Scalar

variable {α : Type} [Scalar α]

def sortedKnown (samples : List α) : List α := (known samples).mergeSort le

/-- The point that lies the share `t` of the way from `a` to `b`. -/
def between (a b t : α) : α :=
  if lt t (decimal 5 1) then a + (b - a) * t else b - (b - a) * (nat 1 - t)

/-- The quantile of a list of sorted numbers. -/
def interpolated (sorted : List α) (q : α) : α :=
  let last := sorted.length - 1
  let place := nat last * q
  let low := wholePart place
  let share := place - nat low
  let entry (i : Nat) : α := sorted.getD i nan
  if le (nat last) place then between (entry last) (entry last) share
  else between (entry low) (entry (low + 1)) share

/-- A share outside the range from zero to one. -/
structure ShareOutOfRange where

/-- The quantile of samples; zero where there are none. -/
def quantile (samples : List α) (q : α) : Except ShareOutOfRange α :=
  let sorted := sortedKnown samples
  if sorted.isEmpty then .ok (nat 0)
  else if le (nat 0) q && le q (nat 1) then .ok (interpolated sorted q)
  else .error {}

/-- The quantile of sorted numbers for a share that is a percentage; zero where there are none. -/
def percentileOfSorted (sorted : List α) (percent : Nat) : α :=
  if sorted.isEmpty then nat 0 else interpolated sorted (decimal percent 2)

/-- The quantile of samples for a share that is a percentage. -/
def percentile (samples : List α) (percent : Nat) : α :=
  percentileOfSorted (sortedKnown samples) percent

end BusinessCase
