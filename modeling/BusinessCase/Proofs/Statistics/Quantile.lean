/-
BusinessCase.Proofs.Statistics.Quantile — quantiles of samples in exact
arithmetic.

The line between two samples is followed from the nearer end, by one formula
below the middle and by another from there on. Without rounding both give the
same point, so a quantile is the height of a broken line that has the sorted
numbers for its corners. It meets them at whole places, it rises from place to
place because they do, and it rises with them. A number that is raised changes
its place among the sorted ones, but no place comes to hold less.

  §1 Line     — `height`, along a broken line.
  §2 Quantile — `quantile_eq`, a quantile is such a height.
  §3 Corners  — sorted numbers, and which of them is an `IsOrderStatistic`.
  §4 Whole    — `quantile_laws`.
-/
import BusinessCase.Proofs.Pointwise
import BusinessCase.Proofs.Statistics.Permutation

namespace BusinessCase

open Scalar

variable {K : Type} [Field K] [LinearOrder K] [FloorRing K]

/-! ## §1 Line -/

/-- How high the broken line through these corners, one at every whole place, is at a place. -/
def height (corner : ℕ → K) (place : K) : K :=
  corner ⌊place⌋₊ + (corner (⌊place⌋₊ + 1) - corner ⌊place⌋₊) * (place - ⌊place⌋₊)

section Line

variable [IsStrictOrderedRing K] {corner higher : ℕ → K} {place further : K}

@[simp] theorem height_natCast (corner : ℕ → K) (k : ℕ) : height corner (k : K) = corner k := by
  simp [height]

theorem corner_le_height (rises : Monotone corner) (nonneg : 0 ≤ place) :
    corner ⌊place⌋₊ ≤ height corner place :=
  le_add_of_nonneg_right (mul_nonneg (sub_nonneg.mpr (rises (Nat.le_succ _)))
    (sub_nonneg.mpr (Nat.floor_le nonneg)))

theorem height_le_corner (rises : Monotone corner) :
    height corner place ≤ corner (⌊place⌋₊ + 1) := by
  have share : place - ⌊place⌋₊ ≤ 1 := sub_le_iff_le_add'.mpr (Nat.lt_floor_add_one place).le
  have part := mul_le_of_le_one_right (sub_nonneg.mpr (rises (Nat.le_succ ⌊place⌋₊))) share
  exact le_sub_iff_add_le'.mp part

/-- Where the corners rise, the line does. -/
theorem height_mono (rises : Monotone corner) (nonneg : 0 ≤ place) (le : place ≤ further) :
    height corner place ≤ height corner further := by
  rcases (Nat.floor_mono le).eq_or_lt with same | behind
  · have step := sub_nonneg.mpr (rises (Nat.le_succ ⌊further⌋₊))
    rw [height, height, same]
    exact add_le_add_right (mul_le_mul_of_nonneg_left (sub_le_sub_right le _) step) _
  · calc height corner place ≤ corner (⌊place⌋₊ + 1) := height_le_corner rises
      _ ≤ corner ⌊further⌋₊ := rises behind
      _ ≤ height corner further := corner_le_height rises (nonneg.trans le)

/-- Higher corners have a higher line. -/
theorem height_le_height (each : ∀ i, corner i ≤ higher i) (nonneg : 0 ≤ place) :
    height corner place ≤ height higher place := by
  have mixed (c : ℕ → K) : height c place =
      c ⌊place⌋₊ * (1 - (place - ⌊place⌋₊)) + c (⌊place⌋₊ + 1) * (place - ⌊place⌋₊) := by
    rw [height]
    ring
  have share : 0 ≤ place - ⌊place⌋₊ := sub_nonneg.mpr (Nat.floor_le nonneg)
  have rest : 0 ≤ 1 - (place - ⌊place⌋₊) :=
    sub_nonneg.mpr (sub_le_iff_le_add'.mpr (Nat.lt_floor_add_one place).le)
  rw [mixed, mixed]
  exact add_le_add (mul_le_mul_of_nonneg_right (each _) rest)
    (mul_le_mul_of_nonneg_right (each _) share)

end Line

/-! ## §2 Quantile -/

/-- The entries of a list as corners, the last of them going on for ever. -/
def entryAt (sorted : List K) (i : ℕ) : K := sorted.getD (min i (sorted.length - 1)) 0

/-- The height of the line through a list at a share of the way to its last entry. -/
def heightAt (sorted : List K) (q : K) : K :=
  height (entryAt sorted) ((sorted.length - 1 : ℕ) * q)

/-- The numbers among samples in order. -/
def sortedNumbers (samples : List (Exact K)) : List K :=
  (numbers samples).mergeSort fun a b => decide (a ≤ b)

omit [Field K] [FloorRing K] in
theorem sortedNumbers_perm (samples : List (Exact K)) :
    (sortedNumbers samples).Perm (numbers samples) :=
  List.mergeSort_perm _ _

omit [Field K] [FloorRing K] in
theorem sortedNumbers_ne_nil {samples : List (Exact K)} (some_number : numbers samples ≠ []) :
    sortedNumbers samples ≠ [] :=
  fun none => some_number ((sortedNumbers_perm samples).symm.trans (none ▸ .refl _)).eq_nil

omit [Field K] [FloorRing K] in
theorem sortedNumbers_sorted (samples : List (Exact K)) : (sortedNumbers samples).SortedLE :=
  List.sortedLE_mergeSort

section Rules

variable [RealFunctions K]

/-- Both formulas for a point between two numbers give the same one. -/
theorem between_num (a b t : K) :
    between (Exact.num a) (.num b) (.num t) = .num (a + (b - a) * t) := by
  have one : (nat 1 : Exact K) = .num 1 := by rw [Exact.nat_eq, Nat.cast_one]
  have fromEnd : b - (b - a) * (1 - t) = a + (b - a) * t := by ring
  rw [between, one, Exact.num_sub, Exact.num_sub, Exact.num_mul, Exact.num_mul, Exact.num_add,
    Exact.num_sub, fromEnd, ite_self]

theorem interpolated_map_num [IsStrictOrderedRing K] {sorted : List K} (some_entry : sorted ≠ [])
    {q : K} (nonneg : 0 ≤ q) :
    interpolated (sorted.map Exact.num) (.num q) = .num (heightAt sorted q) := by
  set last := sorted.length - 1 with last_eq
  set place : K := last * q with place_eq
  have long : last < sorted.length := Nat.sub_one_lt (by simpa using some_entry)
  have entry {i : ℕ} (within : i ≤ last) :
      (sorted.map Exact.num).getD i nan = .num (entryAt sorted i) := by
    have inside : i < (sorted.map Exact.num).length := by
      rw [List.length_map]
      exact within.trans_lt long
    rw [List.getD_eq_getElem _ _ inside, List.getElem_map, entryAt, min_eq_left within,
      List.getD_eq_getElem _ _ (within.trans_lt long)]
  have low : wholePart (Exact.num place) = ⌊place⌋₊ := Int.floor_toNat place
  rw [interpolated]
  simp only [List.length_map, ← last_eq, Exact.nat_eq, Exact.num_mul, ← place_eq, low,
    Exact.num_sub, Exact.le_num, decide_eq_true_eq]
  split
  · next behind =>
    -- From the last entry on the line is level.
    have reached : last ≤ ⌊place⌋₊ := Nat.le_floor behind
    have level {i : ℕ} (from_last : last ≤ i) : entryAt sorted i = entryAt sorted last := by
      rw [entryAt, entryAt, ← last_eq, min_eq_right from_last, min_self]
    rw [entry le_rfl, between_num, heightAt, ← last_eq, ← place_eq, height, level reached,
      level (reached.trans (Nat.le_succ _)), sub_self, zero_mul]
  · next before =>
    have inside : ⌊place⌋₊ < last :=
      (Nat.floor_lt (mul_nonneg (Nat.cast_nonneg last) nonneg)).mpr (not_le.mp before)
    rw [entry inside.le, entry inside, between_num, heightAt, ← last_eq, ← place_eq, height]

/-- **A quantile is a height.** -/
theorem quantile_eq [IsStrictOrderedRing K] {samples : List (Exact K)}
    (some_number : numbers samples ≠ []) {q : K} (nonneg : 0 ≤ q) (atMost : q ≤ 1) :
    quantile samples (.num q) = .ok (.num (heightAt (sortedNumbers samples) q)) := by
  have some_entry := sortedNumbers_ne_nil some_number
  have filled : ((sortedNumbers samples).map Exact.num).isEmpty = false := by simpa using some_entry
  rw [quantile, sortedKnown_eq, ← sortedNumbers]
  simp [filled, nonneg, atMost, interpolated_map_num some_entry nonneg]

theorem percentileOfSorted_eq [IsStrictOrderedRing K] {sorted : List K} (some_entry : sorted ≠ [])
    (percent : ℕ) :
    percentileOfSorted (sorted.map Exact.num) percent =
      .num (heightAt sorted (percent / 10 ^ 2)) := by
  have filled : (sorted.map Exact.num).isEmpty = false := by simpa using some_entry
  have share : (0 : K) ≤ percent / 10 ^ 2 := div_nonneg (Nat.cast_nonneg _) (by norm_num)
  rw [percentileOfSorted, filled, if_neg Bool.false_ne_true]
  exact interpolated_map_num some_entry share

end Rules

/-! ## §3 Corners -/

section Corners

variable {sorted higher : List K}

omit [LinearOrder K] [FloorRing K] in
theorem entryAt_mem (some_entry : sorted ≠ []) (i : ℕ) : entryAt sorted i ∈ sorted := by
  have inside : min i (sorted.length - 1) < sorted.length :=
    (min_le_right _ _).trans_lt (Nat.sub_one_lt (by simpa using some_entry))
  rw [entryAt, List.getD_eq_getElem _ _ inside]
  exact List.getElem_mem inside

omit [FloorRing K] in
theorem entryAt_mono (inOrder : sorted.SortedLE) : Monotone (entryAt sorted) := by
  intro i j le
  by_cases none : sorted = []
  · simp [entryAt, none]
  · have last : sorted.length - 1 < sorted.length := Nat.sub_one_lt (by simpa using none)
    have inside (i : ℕ) : min i (sorted.length - 1) < sorted.length :=
      (min_le_right _ _).trans_lt last
    rw [entryAt, entryAt, List.getD_eq_getElem _ _ (inside i), List.getD_eq_getElem _ _ (inside j)]
    exact inOrder.getElem_le_getElem_of_le (min_le_min_right _ le)

omit [FloorRing K] in
theorem entryAt_le_entryAt (each : List.Forall₂ (· ≤ ·) sorted higher) (i : ℕ) :
    entryAt sorted i ≤ entryAt higher i := by
  rw [entryAt, entryAt, each.length_eq]
  exact getD_le_getD each 0 _

end Corners

section OrderStatistic

variable {K : Type} [LinearOrder K] {xs ys : List K} {k : ℕ} {v w : K}

/-- The number that stands at this place, counted from zero, when the list is in order: no more
numbers than that are less, and more are not greater. -/
def IsOrderStatistic (xs : List K) (k : ℕ) (v : K) : Prop :=
  xs.countP (· < v) ≤ k ∧ k < xs.countP (· ≤ v)

theorem IsOrderStatistic.perm (perm : xs.Perm ys) (stands : IsOrderStatistic xs k v) :
    IsOrderStatistic ys k v := by
  rw [IsOrderStatistic, ← perm.countP_eq, ← perm.countP_eq]
  exact stands

/-- What is less than another order statistic stands further in front. -/
theorem IsOrderStatistic.le (stands : IsOrderStatistic xs k v) (stands' : IsOrderStatistic xs k w) :
    v ≤ w := by
  refine not_lt.mp fun less => ?_
  have counted : xs.countP (· ≤ w) ≤ xs.countP (· < v) := List.countP_mono_left fun x _ atMost =>
    decide_eq_true ((of_decide_eq_true atMost).trans_lt less)
  exact absurd (stands'.2.trans_le counted) stands.1.not_gt

/-- Of a list in order it is the one that stands there. -/
theorem isOrderStatistic_getElem (inOrder : xs.SortedLE) (inside : k < xs.length) :
    IsOrderStatistic xs k xs[k] := by
  have behind : (xs.drop k).countP (· < xs[k]) = 0 := by
    refine List.countP_eq_zero.mpr fun x mem => ?_
    obtain ⟨i, within, rfl⟩ := List.mem_drop_iff_getElem.mp mem
    simpa using inOrder.getElem_le_getElem_of_le (Nat.le_add_right k i)
  have upTo : (xs.take (k + 1)).countP (· ≤ xs[k]) = (xs.take (k + 1)).length := by
    refine List.countP_eq_length.mpr fun x mem => ?_
    obtain ⟨i, within, rfl⟩ := List.mem_take_iff_getElem.mp mem
    simpa using inOrder.getElem_le_getElem_of_le (show i ≤ k by omega)
  constructor
  · calc xs.countP (· < xs[k])
        = (xs.take k).countP (· < xs[k]) + (xs.drop k).countP (· < xs[k]) := by
          rw [← List.countP_append, List.take_append_drop]
      _ = (xs.take k).countP (· < xs[k]) := by rw [behind, Nat.add_zero]
      _ ≤ (xs.take k).length := List.countP_le_length
      _ ≤ k := List.length_take_le k xs
  · have long : (xs.take (k + 1)).length = k + 1 := by
      rw [List.length_take, min_eq_left inside]
    have counted : (xs.take (k + 1)).countP (· ≤ xs[k]) ≤ xs.countP (· ≤ xs[k]) :=
      (List.take_sublist _ _).countP_le
    rw [upTo, long] at counted
    exact counted

end OrderStatistic

/-! ## §4 Whole -/

section Whole

variable [RealFunctions K] {samples others : List (Exact K)} {q more : K}

/-- This is the quantile of the samples for the share. -/
def IsQuantile (samples : List (Exact K)) (q v : K) : Prop :=
  quantile samples (.num q) = .ok (.num v)

/-- A sample is left as it is or, if it is a number, raised. -/
def Raised : Exact K → Exact K → Prop
  | .num x, .num y => x ≤ y
  | .nan, .nan => True
  | _, _ => False

omit [Field K] [FloorRing K] [RealFunctions K] in
theorem numbers_le_numbers (raised : List.Forall₂ Raised samples others) :
    List.Forall₂ (· ≤ ·) (numbers samples) (numbers others) := by
  induction raised with
  | nil => exact .nil
  | @cons x y _ _ first _ ih =>
    cases x <;> cases y
    · exact .cons first ih
    · exact first.elim
    · exact first.elim
    · exact ih

variable [IsStrictOrderedRing K]

omit [RealFunctions K] in
theorem heightAt_mono (samples : List (Exact K)) (nonneg : 0 ≤ q) (le : q ≤ more) :
    heightAt (sortedNumbers samples) q ≤ heightAt (sortedNumbers samples) more :=
  height_mono (entryAt_mono (sortedNumbers_sorted samples))
    (mul_nonneg (Nat.cast_nonneg _) nonneg) (mul_le_mul_of_nonneg_left le (Nat.cast_nonneg _))

omit [RealFunctions K] in
theorem heightAt_le_heightAt (raised : List.Forall₂ Raised samples others) (nonneg : 0 ≤ q) :
    heightAt (sortedNumbers samples) q ≤ heightAt (sortedNumbers others) q := by
  have each := mergeSort_le_mergeSort (numbers_le_numbers raised)
  have long : (sortedNumbers samples).length = (sortedNumbers others).length := each.length_eq
  rw [heightAt, heightAt, long]
  exact height_le_height (entryAt_le_entryAt each) (mul_nonneg (Nat.cast_nonneg _) nonneg)

omit [RealFunctions K] in
/-- The height is between the least and the greatest number. -/
theorem heightAt_mem (some_number : numbers samples ≠ []) (nonneg : 0 ≤ q) :
    (numbers samples).min some_number ≤ heightAt (sortedNumbers samples) q ∧
      heightAt (sortedNumbers samples) q ≤ (numbers samples).max some_number := by
  have rises := entryAt_mono (sortedNumbers_sorted samples)
  have number (i : ℕ) : entryAt (sortedNumbers samples) i ∈ numbers samples :=
    (sortedNumbers_perm samples).mem_iff.mp (entryAt_mem (sortedNumbers_ne_nil some_number) i)
  have place : 0 ≤ (((sortedNumbers samples).length - 1 : ℕ) : K) * q :=
    mul_nonneg (Nat.cast_nonneg _) nonneg
  exact ⟨(List.min_le_of_mem (number _)).trans (corner_le_height rises place),
    (height_le_corner rises).trans (List.le_max_of_mem (number _))⟩

omit [RealFunctions K] in
/-- At a whole place it is the number that stands there. -/
theorem heightAt_isOrderStatistic (some_number : numbers samples ≠ []) (atMost : q ≤ 1) {k : ℕ}
    (whole : ((numbers samples).length - 1) * q = k) :
    IsOrderStatistic (numbers samples) k (heightAt (sortedNumbers samples) q) := by
  have perm := sortedNumbers_perm samples
  have some_entry : 1 ≤ (sortedNumbers samples).length :=
    List.length_pos_iff.mpr (sortedNumbers_ne_nil some_number)
  have last : (((sortedNumbers samples).length - 1 : ℕ) : K) = (numbers samples).length - 1 := by
    rw [Nat.cast_sub some_entry, perm.length_eq, Nat.cast_one]
  have within : k ≤ (sortedNumbers samples).length - 1 := by
    have bound : (((sortedNumbers samples).length - 1 : ℕ) : K) * q ≤
        ((sortedNumbers samples).length - 1 : ℕ) :=
      mul_le_of_le_one_right (Nat.cast_nonneg _) atMost
    rw [last, whole, ← last] at bound
    exact Nat.cast_le.mp bound
  have inside : k < (sortedNumbers samples).length := by omega
  rw [heightAt, last, whole, height_natCast, entryAt, min_eq_left within,
    List.getD_eq_getElem _ _ inside]
  exact (isOrderStatistic_getElem (sortedNumbers_sorted samples) inside).perm perm

/-- The percentiles of the statistics rise. -/
theorem percentiles_rise (some_number : numbers samples ≠ []) :
    [(Stats.of samples).p10, (Stats.of samples).p25, (Stats.of samples).p50,
      (Stats.of samples).p75, (Stats.of samples).p90].Pairwise (le · · = true) := by
  have percentile (percent : ℕ) : percentileOfSorted (sortedKnown samples) percent =
      .num (heightAt (sortedNumbers samples) (percent / 10 ^ 2)) := by
    rw [sortedKnown_eq]
    exact percentileOfSorted_eq (sortedNumbers_ne_nil some_number) percent
  have rise {percent further : ℕ} (before : percent ≤ further) :
      le (percentileOfSorted (sortedKnown samples) percent)
        (percentileOfSorted (sortedKnown samples) further) = true := by
    have shares : (percent : K) / 10 ^ 2 ≤ further / 10 ^ 2 :=
      div_le_div_of_nonneg_right (Nat.cast_le.mpr before) (by norm_num)
    rw [percentile, percentile, Exact.le_num, decide_eq_true_eq]
    exact heightAt_mono samples (div_nonneg (Nat.cast_nonneg _) (by norm_num)) shares
  have shares : [10, 25, 50, 75, 90].Pairwise (· ≤ ·) := by decide
  have percentiles : ([10, 25, 50, 75, 90].map (percentileOfSorted (sortedKnown samples))).Pairwise
      (le · · = true) := List.pairwise_map.mpr (shares.imp rise)
  exact percentiles

/-- **The laws of quantiles.** Samples of which some are numbers have a quantile for every share. It
lies between the least and the greatest number, and where the share leads to a whole place, it is
the one number that stands there. It depends on the numbers alone, in whatever order and with
whatever else among them. For a larger share, and for samples that have been raised, it is no
smaller; so the percentiles of the statistics rise. -/
theorem quantile_laws (some_number : numbers samples ≠ []) (nonneg : 0 ≤ q) (atMost : q ≤ 1) :
    ∃ v, IsQuantile samples q v ∧
      ((numbers samples).min some_number ≤ v ∧ v ≤ (numbers samples).max some_number) ∧
      (∀ k : ℕ, ((numbers samples).length - 1) * q = k →
        ∀ w, IsOrderStatistic (numbers samples) k w ↔ w = v) ∧
      (∀ others, (numbers others).Perm (numbers samples) → IsQuantile others q v) ∧
      (∀ more, q ≤ more → more ≤ 1 → ∃ above, IsQuantile samples more above ∧ v ≤ above) ∧
      (∀ raised, List.Forall₂ Raised samples raised →
        ∃ above, IsQuantile raised q above ∧ v ≤ above) ∧
      [(Stats.of samples).p10, (Stats.of samples).p25, (Stats.of samples).p50,
        (Stats.of samples).p75, (Stats.of samples).p90].Pairwise (le · · = true) := by
  refine ⟨_, quantile_eq some_number nonneg atMost, heightAt_mem some_number nonneg, ?_, ?_, ?_, ?_,
    percentiles_rise some_number⟩
  · intro k whole w
    have stands := heightAt_isOrderStatistic some_number atMost whole
    constructor
    · intro other
      exact le_antisymm (other.le stands) (stands.le other)
    · rintro rfl
      exact stands
  · intro others perm
    have sorted : sortedNumbers others = sortedNumbers samples := mergeSort_perm perm
    have some_number' : numbers others ≠ [] := fun none => some_number (none ▸ perm).symm.eq_nil
    rw [IsQuantile, quantile_eq some_number' nonneg atMost, sorted]
  · intro more le atMost'
    exact ⟨_, quantile_eq some_number (nonneg.trans le) atMost', heightAt_mono samples nonneg le⟩
  · intro raised each
    have some_number' : numbers raised ≠ [] := by
      rw [← List.length_pos_iff, ← (numbers_le_numbers each).length_eq]
      exact List.length_pos_iff.mpr some_number
    exact ⟨_, quantile_eq some_number' nonneg atMost, heightAt_le_heightAt each nonneg⟩

end Whole

/-- The theorem for the median of three numbers among four samples: it is the one in the middle, and
raising the least of them above the others does not lower it. -/
theorem quantile_laws_median :
    numbers [Exact.num (3 : ℝ), .nan, .num 1, .num 2] ≠ [] ∧ (0 : ℝ) ≤ 1 / 2 ∧ (1 / 2 : ℝ) ≤ 1 ∧
      IsQuantile [.num (3 : ℝ), .nan, .num 1, .num 2] (1 / 2) 2 ∧
      ∃ above, IsQuantile [.num (3 : ℝ), .nan, .num 7, .num 2] (1 / 2) above ∧ 2 ≤ above := by
  have some_number : numbers [Exact.num (3 : ℝ), .nan, .num 1, .num 2] ≠ [] :=
    List.cons_ne_nil 3 [1, 2]
  have nonneg : (0 : ℝ) ≤ 1 / 2 := by norm_num
  have atMost : (1 / 2 : ℝ) ≤ 1 := by norm_num
  obtain ⟨v, isQuantile, -, stands, -, -, raising, -⟩ := quantile_laws some_number nonneg atMost
  have whole : (((numbers [Exact.num (3 : ℝ), .nan, .num 1, .num 2]).length : ℝ) - 1) * (1 / 2) =
      (1 : ℕ) := by
    show (((3 : ℕ) : ℝ) - 1) * (1 / 2) = (1 : ℕ)
    norm_num
  have middle : IsOrderStatistic (numbers [Exact.num (3 : ℝ), .nan, .num 1, .num 2]) 1 2 := by
    show [(3 : ℝ), 1, 2].countP (· < 2) ≤ 1 ∧ 1 < [(3 : ℝ), 1, 2].countP (· ≤ 2)
    norm_num [List.countP_cons]
  obtain rfl := (stands 1 whole 2).mp middle
  refine ⟨some_number, nonneg, atMost, isQuantile, raising _ ?_⟩
  exact .cons le_rfl (.cons trivial (.cons (by norm_num [Raised]) (.cons le_rfl .nil)))

end BusinessCase
