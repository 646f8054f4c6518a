/-
BusinessCase.Proofs.Statistics.Permutation — reductions that do not depend on
the order of samples.

In exact arithmetic a sum does not depend on the order of its terms, nor do the
least and the greatest of numbers, nor their sorted list. So a reduction of
samples depends on the numbers among them alone, in whatever order, and the
correlation of two series on the pairs of numbers.

  §1 Order    — the least, the greatest and the sorted list of numbers.
  §2 Samples  — `stats_congr`.
  §3 Extremes — the range of numbers, and their length as a vector.
  §4 Pairs    — `correlation_congr`.
-/
import BusinessCase.Proofs.Statistics.Moments
import BusinessCase.Statistics.Report

namespace BusinessCase

open Scalar

variable {K : Type} [LinearOrder K]

/-! ## §1 Order -/

/-- Numbers have one greatest and one least. -/
theorem max?_perm {xs ys : List K} (perm : xs.Perm ys) : xs.max? = ys.max? := by
  refine Option.ext fun m => ?_
  rw [List.max?_eq_some_iff, List.max?_eq_some_iff, perm.mem_iff]
  simp only [perm.mem_iff]

theorem min?_perm {xs ys : List K} (perm : xs.Perm ys) : xs.min? = ys.min? := by
  refine Option.ext fun m => ?_
  rw [List.min?_eq_some_iff, List.min?_eq_some_iff, perm.mem_iff]
  simp only [perm.mem_iff]

/-- Numbers have one sorted list. -/
theorem mergeSort_perm {xs ys : List K} (perm : xs.Perm ys) :
    xs.mergeSort (fun a b => decide (a ≤ b)) = ys.mergeSort (fun a b => decide (a ≤ b)) := by
  have ordered (xs : List K) :
      (xs.mergeSort fun a b => decide (a ≤ b)).Pairwise fun a b => decide (a ≤ b) = true :=
    List.pairwise_mergeSort (fun a b c first second => decide_eq_true
        ((of_decide_eq_true first).trans (of_decide_eq_true second)))
      (fun a b => by simpa using le_total a b) xs
  refine List.Perm.eq_of_pairwise (fun a b _ _ first second => ?_) (ordered xs) (ordered ys)
    ((List.mergeSort_perm xs _).trans (perm.trans (List.mergeSort_perm ys _).symm))
  exact le_antisymm (of_decide_eq_true first) (of_decide_eq_true second)

variable [Field K] [FloorRing K] [RealFunctions K]

/-! ## §2 Samples -/

theorem sumPairwise_perm {xs ys : List (Exact K)} (perm : xs.Perm ys) :
    sumPairwise xs = sumPairwise ys := by
  rw [Exact.sumPairwise_eq, Exact.sumPairwise_eq, perm.sum_eq]

theorem meanOf_perm {xs ys : List (Exact K)} (perm : xs.Perm ys) : meanOf xs = meanOf ys := by
  rw [meanOf, meanOf, sumPairwise_perm perm, perm.length_eq]

theorem sortedKnown_eq (samples : List (Exact K)) :
    sortedKnown samples =
      ((numbers samples).mergeSort fun a b => decide (a ≤ b)).map Exact.num := by
  rw [sortedKnown, known_eq]
  exact (List.map_mergeSort (f := Exact.num) fun _ _ _ _ => rfl).symm

/-- **The statistics of samples** depend on the numbers among them alone. -/
theorem stats_congr {xs ys : List (Exact K)} (perm : (numbers xs).Perm (numbers ys)) :
    Stats.of xs = Stats.of ys := by
  have same : (known xs).Perm (known ys) := by
    rw [known_eq, known_eq]
    exact perm.map Exact.num
  have sorted : sortedKnown xs = sortedKnown ys := by
    rw [sortedKnown_eq, sortedKnown_eq, mergeSort_perm perm]
  have means : mean xs = mean ys := by
    rw [mean, mean, same.isEmpty_eq, meanOf_perm same]
  have deviations : deviation xs = deviation ys := by
    have squares := same.map fun x => (x - meanOf (known ys)) * (x - meanOf (known ys))
    rw [deviation, deviation, same.length_eq, meanOf_perm same]
    dsimp only
    rw [sumPairwise_perm squares]
  rw [Stats.of, Stats.of, sorted, means, deviations]

/-! ## §3 Extremes -/

theorem greatest_map_num (x : K) (xs : List K) :
    greatest (.num x) (xs.map Exact.num) = .num (xs.foldl max x) := by
  have step (a b : K) :
      (if lt (Exact.num a) (.num b) then .num b else .num a : Exact K) = .num (max a b) := by
    rw [Exact.lt_num, max_def_lt, apply_ite Exact.num]
    simp only [decide_eq_true_eq]
  exact List.foldl_map_hom step

theorem least_map_num (x : K) (xs : List K) :
    least (.num x) (xs.map Exact.num) = .num (xs.foldl min x) := by
  have step (a b : K) :
      (if lt (Exact.num b) (.num a) then .num b else .num a : Exact K) = .num (min a b) := by
    rw [Exact.lt_num, min_comm, min_def_lt, apply_ite Exact.num]
    simp only [decide_eq_true_eq]
  exact List.foldl_map_hom step

theorem greatest_perm {x y : K} {xs ys : List K} (perm : (x :: xs).Perm (y :: ys)) :
    greatest (.num x) (xs.map Exact.num) = greatest (.num y) (ys.map Exact.num) := by
  have same := max?_perm perm
  rw [List.max?_cons', List.max?_cons'] at same
  rw [greatest_map_num, greatest_map_num, Option.some.inj same]

theorem least_perm {x y : K} {xs ys : List K} (perm : (x :: xs).Perm (y :: ys)) :
    least (.num x) (xs.map Exact.num) = least (.num y) (ys.map Exact.num) := by
  have same := min?_perm perm
  rw [List.min?_cons', List.min?_cons'] at same
  rw [least_map_num, least_map_num, Option.some.inj same]

theorem range_perm {xs ys : List K} (perm : xs.Perm ys) :
    range (xs.map Exact.num) = range (ys.map Exact.num) := by
  match xs, ys, perm with
  | [], ys, perm => rw [perm.nil_eq]
  | xs, [], perm => rw [perm.eq_nil]
  | x :: xs, y :: ys, perm =>
    rw [List.map_cons, List.map_cons, range, range, greatest_perm perm, least_perm perm]

theorem vectorLength_cons (x : Exact K) (xs : List (Exact K)) :
    vectorLength (x :: xs) =
      greatest (Scalar.abs x) (xs.map Scalar.abs) *
        sqrt (sumPairwise (((x :: xs).map (· / greatest (Scalar.abs x) (xs.map Scalar.abs))).map
          fun y => y * y)) :=
  rfl

theorem vectorLength_perm {xs ys : List K} (perm : xs.Perm ys) :
    vectorLength (xs.map Exact.num) = vectorLength (ys.map Exact.num) := by
  match xs, ys, perm with
  | [], ys, perm => rw [perm.nil_eq]
  | xs, [], perm => rw [perm.eq_nil]
  | x :: xs, y :: ys, perm =>
    have sizes (zs : List K) :
        (zs.map Exact.num).map Scalar.abs = (zs.map (|·|)).map Exact.num := by
      rw [List.map_map, List.map_map]
      rfl
    have largest : greatest (Scalar.abs (.num x)) ((xs.map Exact.num).map Scalar.abs) =
        greatest (Scalar.abs (.num y)) ((ys.map Exact.num).map Scalar.abs) := by
      rw [sizes, sizes, Exact.abs_num, Exact.abs_num]
      exact greatest_perm (perm.map (|·|))
    have entries : (Exact.num x :: xs.map Exact.num).Perm (Exact.num y :: ys.map Exact.num) :=
      perm.map Exact.num
    rw [List.map_cons, List.map_cons, vectorLength_cons, vectorLength_cons, largest,
      sumPairwise_perm ((entries.map _).map _)]

/-! ## §4 Pairs -/

/-- The cosine of the angle between two series of numbers depends on their pairs alone. -/
theorem alignment_perm {ps qs : List (K × K)} (perm : ps.Perm qs) :
    alignment ((ps.map Prod.fst).map Exact.num) ((ps.map Prod.snd).map Exact.num) =
      alignment ((qs.map Prod.fst).map Exact.num) ((qs.map Prod.snd).map Exact.num) := by
  rw [alignment, alignment, vectorLength_perm (perm.map Prod.fst),
    vectorLength_perm (perm.map Prod.snd)]
  simp only [List.map_map, List.zipWith_map, List.zipWith_self]
  exact sumPairwise_perm (perm.map _)

/-- How far the numbers of pairs lie from their means. -/
def centeredPairs (ps : List (K × K)) : List (K × K) :=
  ps.map fun p => (p.1 - (ps.map Prod.fst).sum / ps.length, p.2 - (ps.map Prod.snd).sum / ps.length)

omit [LinearOrder K] [FloorRing K] [RealFunctions K] in
theorem centeredPairs_perm {ps qs : List (K × K)} (perm : ps.Perm qs) :
    (centeredPairs ps).Perm (centeredPairs qs) := by
  rw [centeredPairs, centeredPairs, (perm.map Prod.fst).sum_eq, (perm.map Prod.snd).sum_eq,
    perm.length_eq]
  exact perm.map _

section Ordered

variable [IsStrictOrderedRing K]

theorem centered_map_num {xs : List K} (some_number : xs ≠ []) :
    centered (xs.map Exact.num) = (xs.map (· - xs.sum / xs.length)).map Exact.num := by
  rw [centered, meanOf_map_num some_number, List.map_map, List.map_map]
  rfl

theorem centered_pairs {ps : List (K × K)} (some_pair : ps ≠ []) :
    centered ((ps.map Prod.fst).map Exact.num) = ((centeredPairs ps).map Prod.fst).map Exact.num ∧
      centered ((ps.map Prod.snd).map Exact.num) =
        ((centeredPairs ps).map Prod.snd).map Exact.num := by
  constructor <;>
  · rw [centered_map_num (by simpa using some_pair), List.length_map, centeredPairs]
    simp only [List.map_map]
    rfl

theorem coefficient_perm {ps qs : List (K × K)} (perm : ps.Perm qs) (some_pair : ps ≠ []) :
    coefficient ((ps.map Prod.fst).map Exact.num) ((ps.map Prod.snd).map Exact.num) =
      coefficient ((qs.map Prod.fst).map Exact.num) ((qs.map Prod.snd).map Exact.num) := by
  have some_pair' : qs ≠ [] := fun none => some_pair (none ▸ perm).eq_nil
  obtain ⟨xs, ys⟩ := centered_pairs some_pair
  obtain ⟨xs', ys'⟩ := centered_pairs some_pair'
  rw [coefficient, coefficient, xs, ys, xs', ys', alignment_perm (centeredPairs_perm perm)]
  simp only [List.length_map, perm.length_eq]

/-- **The correlation of two series** depends on the pairs of numbers alone. -/
theorem correlation_congr {xs ys xs' ys' : List (Exact K)} (long : xs.length = ys.length)
    (long' : xs'.length = ys'.length) (perm : (numberPairs xs ys).Perm (numberPairs xs' ys')) :
    correlation xs ys = correlation xs' ys' := by
  have first (xs ys : List (Exact K)) : (knownPairs xs ys).map Prod.fst =
      ((numberPairs xs ys).map Prod.fst).map Exact.num := by
    simp [knownPairs_eq]
  have second (xs ys : List (Exact K)) : (knownPairs xs ys).map Prod.snd =
      ((numberPairs xs ys).map Prod.snd).map Exact.num := by
    simp [knownPairs_eq]
  have counts : (knownPairs xs ys).length = (knownPairs xs' ys').length := by
    rw [knownPairs_eq, knownPairs_eq, List.length_map, List.length_map, perm.length_eq]
  rw [correlation, correlation, if_neg (not_not.mpr long), if_neg (not_not.mpr long')]
  dsimp only
  rw [first, first, second, second, counts, range_perm (perm.map Prod.fst),
    range_perm (perm.map Prod.snd)]
  split
  · rfl
  · next enough =>
    refine coefficient_perm perm fun none => enough ?_
    have few : (knownPairs xs' ys').length = 0 := by
      rw [← counts, knownPairs_eq, none]
      rfl
    simp [few]

end Ordered

end BusinessCase
