/-
BusinessCase.Proofs.Statistics.Moments — samples and their means in exact
arithmetic.

Of the samples only the numbers among them count. Their mean is their sum
divided by how many they are.

  §1 Numbers — `numbers`, what is known of samples.
  §2 Means   — `mean_map_num`.
-/
import BusinessCase.Proofs.Scalar.Exact
import BusinessCase.Statistics.Correlation

namespace BusinessCase

open Scalar

variable {K : Type}

/-! ## §1 Numbers -/

def Exact.number? : Exact K → Option K
  | num x => some x
  | nan => none

/-- The numbers among samples. -/
def numbers (samples : List (Exact K)) : List K := samples.filterMap Exact.number?

/-- The pairs of samples of which both are numbers. -/
def numberPairs (xs ys : List (Exact K)) : List (K × K) :=
  (xs.zip ys).filterMap fun pair =>
    pair.1.number?.bind fun x => pair.2.number?.map fun y => (x, y)

variable [Field K] [LinearOrder K] [FloorRing K] [RealFunctions K]

theorem known_eq (samples : List (Exact K)) : known samples = (numbers samples).map .num := by
  rw [known, numbers, List.map_filterMap, ← List.filterMap_eq_filter]
  refine List.filterMap_congr fun x _ => ?_
  cases x <;> rfl

theorem knownPairs_eq (xs ys : List (Exact K)) :
    knownPairs xs ys = (numberPairs xs ys).map fun pair => (.num pair.1, .num pair.2) := by
  rw [knownPairs, numberPairs, List.map_filterMap, ← List.filterMap_eq_filter]
  refine List.filterMap_congr fun pair _ => ?_
  obtain ⟨x, y⟩ := pair
  cases x <;> cases y <;> rfl

omit [Field K] [LinearOrder K] [FloorRing K] [RealFunctions K] in
theorem numbers_map_num (xs : List K) : numbers (xs.map .num) = xs := by
  rw [numbers, List.filterMap_map]
  exact List.filterMap_some

/-! ## §2 Means -/

theorem meanOf_map_num [IsStrictOrderedRing K] {xs : List K} (some_number : xs ≠ []) :
    meanOf (xs.map Exact.num) = .num (xs.sum / xs.length) := by
  have count : (xs.length : K) ≠ 0 :=
    Nat.cast_ne_zero.mpr fun none => some_number (List.eq_nil_of_length_eq_zero none)
  rw [meanOf, Exact.sumPairwise_eq, Exact.sum_map_num, List.length_map, Exact.nat_eq,
    Exact.num_div count]

/-- **The mean of numbers** is their sum divided by how many they are. -/
theorem mean_map_num [IsStrictOrderedRing K] {xs : List K} (some_number : xs ≠ []) :
    mean (xs.map Exact.num) = .num (xs.sum / xs.length) := by
  have samples : (xs.map Exact.num).isEmpty = false := by simpa using some_number
  rw [mean, known_eq, numbers_map_num, samples, if_neg Bool.false_ne_true,
    meanOf_map_num some_number]

end BusinessCase
