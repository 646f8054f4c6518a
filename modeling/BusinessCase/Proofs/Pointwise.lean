/-
BusinessCase.Proofs.Pointwise — lists of numbers compared place by place.

Where each number of a list is at most the number in the same place of another,
the lists are still ordered so after both have been sorted. The numbers change
their places in that, and not in step with each other; but putting two numbers
in order into sorted lists keeps the lists in order, and sorting is nothing
else.

  §1 Places  — `getD_le_getD`.
  §2 Sorting — `mergeSort_le_mergeSort`.
-/
import Mathlib.Data.List.Sort

namespace BusinessCase

variable {K : Type} {xs ys : List K}

/-! ## §1 Places -/

theorem getD_le_getD [Preorder K] (each : List.Forall₂ (· ≤ ·) xs ys) (default : K) (i : ℕ) :
    xs.getD i default ≤ ys.getD i default := by
  induction each generalizing i with
  | nil => exact le_rfl
  | cons first _ ih =>
    cases i with
    | zero => exact first
    | succ i => exact ih i

/-! ## §2 Sorting -/

variable [LinearOrder K]

/-- A number that is at most all numbers of a sorted list goes to its front. -/
theorem orderedInsert_of_sorted {x : K} (sorted : (x :: xs).Pairwise (· ≤ ·)) :
    xs.orderedInsert (· ≤ ·) x = x :: xs := by
  cases xs with
  | nil => rfl
  | cons y xs =>
    exact List.orderedInsert_cons_of_le _ _ (List.rel_of_pairwise_cons sorted List.mem_cons_self)

theorem orderedInsert_le_orderedInsert {x y : K} (le : x ≤ y) (sorted : xs.Pairwise (· ≤ ·))
    (sorted' : ys.Pairwise (· ≤ ·)) (each : List.Forall₂ (· ≤ ·) xs ys) :
    List.Forall₂ (· ≤ ·) (xs.orderedInsert (· ≤ ·) x) (ys.orderedInsert (· ≤ ·) y) := by
  induction each generalizing x y with
  | nil => exact .cons le .nil
  | @cons a b as bs first rest ih =>
    have tail := List.Pairwise.of_cons sorted
    have tail' := List.Pairwise.of_cons sorted'
    rw [List.orderedInsert_cons, List.orderedInsert_cons]
    -- Where only one of the two goes in here, the other list's head takes its part further behind.
    split
    · next before =>
      split
      · exact .cons le (.cons first rest)
      · next behind =>
        have passed := ih (first.trans (not_le.mp behind).le) tail tail'
        rw [orderedInsert_of_sorted sorted] at passed
        exact .cons (before.trans first) passed
    · next behind =>
      split
      · next before =>
        have passed := ih (le.trans before) tail tail'
        rw [orderedInsert_of_sorted sorted'] at passed
        exact .cons ((not_le.mp behind).le.trans le) passed
      · exact .cons first (ih le tail tail')

theorem insertionSort_le_insertionSort (each : List.Forall₂ (· ≤ ·) xs ys) :
    List.Forall₂ (· ≤ ·) (xs.insertionSort (· ≤ ·)) (ys.insertionSort (· ≤ ·)) := by
  induction each with
  | nil => exact .nil
  | @cons x y xs ys first _ ih =>
    exact orderedInsert_le_orderedInsert first (List.pairwise_insertionSort _ xs)
      (List.pairwise_insertionSort _ ys) ih

/-- **Sorting keeps lists in order place by place.** -/
theorem mergeSort_le_mergeSort (each : List.Forall₂ (· ≤ ·) xs ys) :
    List.Forall₂ (· ≤ ·) (xs.mergeSort fun a b => decide (a ≤ b))
      (ys.mergeSort fun a b => decide (a ≤ b)) := by
  have sorted := insertionSort_le_insertionSort each
  rw [← List.mergeSort_eq_insertionSort, ← List.mergeSort_eq_insertionSort] at sorted
  exact sorted

end BusinessCase
