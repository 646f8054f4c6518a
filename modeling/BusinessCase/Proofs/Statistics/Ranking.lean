/-
BusinessCase.Proofs.Statistics.Ranking — the inputs that the worth depends on
most.

A correlation of doubles is never no number, whatever the series hold. So the
sizes of impacts are compared by their ranks, which are a total order, and
sorting by them keeps the order of the columns where two are the same. The
first of a sorted list then come before all that are left out.

  §1 Sorting — `pairwise_mergeSort_key`, sorting by a key keeps the order of ties.
  §2 Impacts — a correlation is a number.
  §3 Whole   — `ranking_exact`.
-/
import BusinessCase.Proofs.Scalar.Kinds
import BusinessCase.Proofs.Table
import BusinessCase.Statistics.Report
import Mathlib.Data.List.Sort

namespace BusinessCase

open Scalar

/-! ## §1 Sorting -/

section Sorting

variable {β κ : Type} {items : List β} {a b : β}

/-- Two items of a list stand in it one before the other. -/
theorem pair_sublist_or (ha : a ∈ items) (hb : b ∈ items) (ne : a ≠ b) :
    [a, b].Sublist items ∨ [b, a].Sublist items := by
  induction items with
  | nil => cases ha
  | cons first rest ih =>
    rcases List.mem_cons.mp ha with rfl | laterA
    · have laterB := (List.mem_cons.mp hb).resolve_left ne.symm
      exact .inl (.cons_cons a (List.singleton_sublist.mpr laterB))
    · rcases List.mem_cons.mp hb with rfl | laterB
      · exact .inr (.cons_cons b (List.singleton_sublist.mpr laterA))
      · exact (ih laterA laterB).imp (.cons first) (.cons first)

/-- Where nothing stands twice, two items do not stand in both orders. -/
theorem not_sublist_swap (distinct : items.Nodup) (ordered : [a, b].Sublist items) :
    ¬ [b, a].Sublist items := by
  induction items with
  | nil => cases ordered
  | cons first rest ih =>
    obtain ⟨fresh, distinct⟩ := List.nodup_cons.mp distinct
    intro swapped
    cases ordered with
    | cons _ ordered =>
      cases swapped with
      | cons _ swapped => exact ih distinct ordered swapped
      | cons_cons => exact fresh (ordered.subset (by simp))
    | cons_cons _ later =>
      cases swapped with
      | cons _ swapped => exact fresh (swapped.subset (by simp))
      | cons_cons => exact fresh (later.subset (by simp))

/-- What is sorted depends on how its own items compare. -/
theorem mergeSort_congr {r s : β → β → Bool} (same : ∀ a ∈ items, ∀ b ∈ items, r a b = s a b) :
    items.mergeSort r = items.mergeSort s := by
  simpa only [List.map_id] using List.map_mergeSort (f := id) same

variable [LinearOrder κ]

/-- **Sorting by a key, the greatest first, keeps the order of items of one key.** -/
theorem pairwise_mergeSort_key (key : β → κ) (distinct : items.Nodup) :
    (items.mergeSort fun a b => decide (key b ≤ key a)).Pairwise fun a b =>
      key b < key a ∨ key b = key a ∧ [a, b].Sublist items := by
  set before := fun a b : β => decide (key b ≤ key a)
  have trans (a b c : β) (first : before a b = true) (second : before b c = true) :
      before a c = true :=
    decide_eq_true ((of_decide_eq_true second).trans (of_decide_eq_true first))
  have total (a b : β) : (before a b || before b a) = true := by
    simpa [before] using le_total (key b) (key a)
  have perm := List.mergeSort_perm items before
  have sorted {a b : β} (ordered : [a, b].Sublist (items.mergeSort before)) : before a b = true :=
    List.pairwise_iff_forall_sublist.mp (List.pairwise_mergeSort trans total items) ordered
  refine List.pairwise_iff_forall_sublist.mpr fun {a b} ordered => ?_
  refine (of_decide_eq_true (sorted ordered)).lt_or_eq.imp id fun same => ⟨same, ?_⟩
  have nodup := perm.nodup_iff.mpr distinct
  have ne : a ≠ b := by simpa using nodup.sublist ordered
  have member {c : β} (among : c ∈ [a, b]) : c ∈ items := perm.mem_iff.mp (ordered.subset among)
  -- Were the second in front of the first in the list, sorting would have left it there.
  refine (pair_sublist_or (member (by simp)) (member (by simp)) ne).resolve_right fun behind => ?_
  exact not_sublist_swap nodup ordered
    (List.pair_sublist_mergeSort trans total (decide_eq_true same.ge) behind)

end Sorting

/-! ## §2 Impacts -/

section Impacts

theorem isNaN_nat {n : ℕ} (small : n < 2 ^ 52) : (nat n : Float).isNaN = false :=
  isNaN_of_isFinite (nat_within small).finite

theorem isNaN_roundSign (x : Float) : (roundSign x).isNaN = false := by
  have minus : (-(nat 1) : Float).isNaN = false :=
    isNaN_of_isFinite (neg_exact (nat_within (by decide)).finite).1
  unfold roundSign
  split
  · exact isNaN_nat (by decide)
  · split
    · exact minus
    · exact isNaN_nat (by decide)

/-- **A correlation of doubles is a number**, whatever the series hold. -/
theorem isNaN_correlation (xs ys : List Float) : (correlation xs ys).isNaN = false := by
  have zero : (nat 0 : Float).isNaN = false := isNaN_nat (by decide)
  unfold correlation coefficient
  split
  · exact zero
  · dsimp only
    split
    · exact zero
    · split
      · exact zero
      · next number =>
        split
        · exact isNaN_roundSign _
        · exact Bool.eq_false_of_not_eq_true number

/-- Impacts are compared in size by the ranks of their sizes. -/
theorem before_eq {a b : SensitivityEntry Float} (ha : a.impact.isNaN = false)
    (hb : b.impact.isNaN = false) :
    a.before b = decide (floatRank b.impact.abs ≤ floatRank a.impact.abs) :=
  decide_eq_decide.mpr (float_le_iff (isNaN_abs hb) (isNaN_abs ha))

end Impacts

/-! ## §3 Whole -/

section Whole

variable {metrics : Table (List Float)} {npv : List Float} {names : Table String}

/-- What is said about a column. -/
def impactOf (npv : List Float) (names : Table String) (column : String × List Float) :
    SensitivityEntry Float :=
  { id := column.1
    name := (names.find? column.1).getD column.1
    impact := correlation column.2 npv }

/-- The first of two inputs comes before the second, where these are the columns: its impact is the
greater in size, or as great and its column stands in front. -/
def Outranks (columns : List String) (a b : SensitivityEntry Float) : Prop :=
  b.impact.abs < a.impact.abs ∨
    (b.impact.abs == a.impact.abs) = true ∧ [a.id, b.id].Sublist columns

/-- All columns, the one with the greatest impact first. -/
def rankedColumns (metrics : Table (List Float)) (npv : List Float) (names : Table String) :
    List (SensitivityEntry Float) :=
  (metrics.map (impactOf npv names)).mergeSort SensitivityEntry.before

theorem ranking_eq_take (k : ℕ) :
    ranking metrics npv names (some k) = (rankedColumns metrics npv names).take k := by
  have counted : ¬ ((k : ℤ) < 0) := by omega
  rw [ranking, upTo, if_neg counted, Int.toNat_natCast]
  rfl

theorem rankedColumns_perm :
    (rankedColumns metrics npv names).Perm (metrics.map (impactOf npv names)) :=
  List.mergeSort_perm _ _

theorem ids_rankedColumns :
    ((rankedColumns metrics npv names).map (·.id)).Perm metrics.names := by
  have ids : (metrics.map (impactOf npv names)).map (·.id) = metrics.names := List.map_map
  exact ids ▸ rankedColumns_perm.map (·.id)

theorem isNaN_impactOf (column : String × List Float) :
    (impactOf npv names column).impact.isNaN = false :=
  isNaN_correlation column.2 npv

/-- **Every column comes before those behind it.** -/
theorem rankedColumns_pairwise (distinct : metrics.names.Nodup) (npv : List Float)
    (names : Table String) :
    (rankedColumns metrics npv names).Pairwise (Outranks metrics.names) := by
  have number {entry : SensitivityEntry Float}
      (member : entry ∈ metrics.map (impactOf npv names)) : entry.impact.isNaN = false := by
    obtain ⟨column, -, rfl⟩ := List.mem_map.mp member
    exact isNaN_impactOf column
  have ids : (metrics.map (impactOf npv names)).map (·.id) = metrics.names := List.map_map
  -- Sizes that are numbers compare as their ranks do, so this is sorting by a key.
  have byRank : rankedColumns metrics npv names =
      (metrics.map (impactOf npv names)).mergeSort fun a b =>
        decide (floatRank b.impact.abs ≤ floatRank a.impact.abs) :=
    mergeSort_congr fun a ha b hb => before_eq (number ha) (number hb)
  have nodup : (metrics.map (impactOf npv names)).Nodup := .of_map (·.id) (ids ▸ distinct)
  have sorted := pairwise_mergeSort_key (fun entry => floatRank entry.impact.abs) nodup
  rw [← byRank] at sorted
  refine sorted.imp_of_mem fun {a b} ha hb ranks => ?_
  have numberA := isNaN_abs (number (rankedColumns_perm.mem_iff.mp ha))
  have numberB := isNaN_abs (number (rankedColumns_perm.mem_iff.mp hb))
  refine ranks.imp (float_lt_iff numberB numberA).mpr ?_
  rintro ⟨same, ordered⟩
  refine ⟨(float_beq_iff numberB numberA).mpr same, ?_⟩
  rw [← ids]
  exact ordered.map SensitivityEntry.id

/-- **The inputs that the worth depends on most.** Of columns with different ids, as many are ranked
as are asked for, if there are so many, each once, with the correlation of its own samples with the
worth, which is a number. Each of them comes before those behind it, its impact being the greater in
size, or as great and its column in front; and each comes before every column that is left out. -/
theorem ranking_exact (distinct : metrics.names.Nodup) (npv : List Float) (names : Table String)
    (k : ℕ) :
    (ranking metrics npv names (some k)).length = min k metrics.length ∧
    ((ranking metrics npv names (some k)).map (·.id)).Nodup ∧
    (∀ entry ∈ ranking metrics npv names (some k),
      (∃ column ∈ metrics, entry.id = column.1 ∧ entry.impact = correlation column.2 npv) ∧
        entry.impact.isNaN = false) ∧
    (ranking metrics npv names (some k)).Pairwise (Outranks metrics.names) ∧
    ∀ column ∈ metrics, column.1 ∉ (ranking metrics npv names (some k)).map (·.id) →
      ∀ entry ∈ ranking metrics npv names (some k),
        Outranks metrics.names entry (impactOf npv names column) := by
  have sorted := rankedColumns_pairwise distinct npv names
  rw [ranking_eq_take]
  refine ⟨?_, ?_, ?_, sorted.sublist (List.take_sublist _ _), ?_⟩
  · rw [List.length_take, rankedColumns_perm.length_eq, List.length_map]
  · exact (ids_rankedColumns.nodup_iff.mpr distinct).sublist ((List.take_sublist _ _).map _)
  · intro entry kept
    have ranked := rankedColumns_perm.mem_iff.mp (List.mem_of_mem_take kept)
    obtain ⟨column, member, rfl⟩ := List.mem_map.mp ranked
    exact ⟨⟨column, member, rfl, rfl⟩, isNaN_impactOf column⟩
  · intro column member leftOut entry kept
    have ranked : impactOf npv names column ∈ rankedColumns metrics npv names :=
      rankedColumns_perm.mem_iff.mpr (List.mem_map_of_mem member)
    rw [← List.take_append_drop k (rankedColumns metrics npv names)] at ranked sorted
    have behind := (List.mem_append.mp ranked).resolve_left fun kept =>
      leftOut (List.mem_map_of_mem (f := (·.id)) kept)
    exact (List.pairwise_append.mp sorted).2.2 entry kept _ behind

end Whole

/-- Three inputs, of which the first and the last do not change. -/
def threeInputs : Table (List Float) :=
  [("fee", [4.0, 4.0]), ("rent", [3.0, 2.0]), ("tax", [5.0, 5.0])]

theorem ids_threeInputs :
    (ranking threeInputs [1.0, 3.0] [] (some 2)).map (·.id) = ["rent", "fee"] := by
  have feeRent : (impactOf [1.0, 3.0] [] ("fee", [4.0, 4.0])).before
      (impactOf [1.0, 3.0] [] ("rent", [3.0, 2.0])) = false := by decide +kernel
  have feeTax : (impactOf [1.0, 3.0] [] ("fee", [4.0, 4.0])).before
      (impactOf [1.0, 3.0] [] ("tax", [5.0, 5.0])) = true := by decide +kernel
  have rentTax : (impactOf [1.0, 3.0] [] ("rent", [3.0, 2.0])).before
      (impactOf [1.0, 3.0] [] ("tax", [5.0, 5.0])) = true := by decide +kernel
  have sorted : rankedColumns threeInputs [1.0, 3.0] [] =
      [impactOf [1.0, 3.0] [] ("rent", [3.0, 2.0]), impactOf [1.0, 3.0] [] ("fee", [4.0, 4.0]),
        impactOf [1.0, 3.0] [] ("tax", [5.0, 5.0])] := by
    simp [rankedColumns, threeInputs, List.mergeSort, feeRent, feeTax, rentTax]
  rw [show (2 : ℤ) = (2 : ℕ) from rfl, ranking_eq_take, sorted]
  rfl

/-- The theorem for the first two of those inputs: the one that changes comes first, and of the two
others the one in front is kept and comes before the one that is left out. -/
theorem ranking_exact_tie :
    threeInputs.names.Nodup ∧
      (ranking threeInputs [1.0, 3.0] [] (some 2)).length = 2 ∧
      "tax" ∉ (ranking threeInputs [1.0, 3.0] [] (some 2)).map (·.id) ∧
      ∀ entry ∈ ranking threeInputs [1.0, 3.0] [] (some 2),
        Outranks ["fee", "rent", "tax"] entry (impactOf [1.0, 3.0] [] ("tax", [5.0, 5.0])) := by
  have distinct : threeInputs.names.Nodup := by decide
  have leftOut : "tax" ∉ (ranking threeInputs [1.0, 3.0] [] (some 2)).map (·.id) := by
    rw [ids_threeInputs]
    decide
  obtain ⟨length, -, -, -, before⟩ := ranking_exact distinct [1.0, 3.0] [] 2
  exact ⟨distinct, length, leftOut, before ("tax", [5.0, 5.0]) (by simp [threeInputs]) leftOut⟩

end BusinessCase
