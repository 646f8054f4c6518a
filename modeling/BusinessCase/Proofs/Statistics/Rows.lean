/-
BusinessCase.Proofs.Statistics.Rows — a report does not depend on the order of
the trials, nor on trials without numbers.

Rows are picked out of all tables at once: those at some places, in any order,
and in between rows that hold no number. If every row is picked once, each
column has the numbers that it had, and each two columns the pairs of numbers,
in some order; a report in exact arithmetic is made of nothing else. The log
also tells how many rows of a column held no number, so it is the same only if
no such rows came in between.

  §1 Picks   — `pick`, rows out of a column and out of all tables.
  §2 Columns — the numbers of a column whose rows were picked.
  §3 Reports — `summarize_agrees`.
  §4 Whole   — `summarize_rows`.
-/
import BusinessCase.Proofs.Simulation.Rows
import BusinessCase.Proofs.Statistics.Permutation
import BusinessCase.Proofs.Table

namespace BusinessCase

open Scalar

/-! ## §1 Picks -/

section Picks

variable {α : Type} [Scalar α]

/-- The entries of a column at some places, and no number where no place is given. -/
def pick (places : List (Option Nat)) (samples : List α) : List α :=
  places.map fun place => (place.bind (samples[·]?)).getD nan

def pickColumns (places : List (Option Nat)) (columns : Table (List α)) : Table (List α) :=
  columns.map fun column => (column.1, pick places column.2)

/-- The rows of all tables at some places, and rows without numbers where no place is given. -/
def TrialTables.pick (places : List (Option Nat)) (tables : TrialTables α) : TrialTables α :=
  { outcomes := pickColumns places tables.outcomes
    metrics := pickColumns places tables.metrics
    categories := pickColumns places tables.categories
    formulas := pickColumns places tables.formulas }

/-- All rows of a column in their order are the column. -/
theorem pick_range (samples : List α) :
    pick ((List.range samples.length).map some) samples = samples := by
  refine List.ext_getElem (by simp [pick]) fun i _ inside => ?_
  simp [pick, inside]

end Picks

variable {K : Type} [Field K] [LinearOrder K] [FloorRing K] [RealFunctions K]
  {places : List (Option Nat)} {n : Nat}

/-! ## §2 Columns -/

/-- What is made row by row, and of nothing out of a row without numbers, is made of all rows. -/
theorem filterMap_places {β : Type} {f : Option Nat → Option β}
    (all : (places.filterMap id).Perm (List.range n)) (nothing : f none = none) :
    (places.filterMap f).Perm ((List.range n).filterMap (f ∘ some)) := by
  have given : places.filterMap f = (places.filterMap id).filterMap (f ∘ some) := by
    rw [List.filterMap_filterMap]
    refine List.filterMap_congr fun place _ => ?_
    cases place with
    | none => exact nothing
    | some i => rfl
  rw [given]
  exact all.filterMap _

/-- **Every row picked once** gives a column the numbers that it had. -/
theorem numbers_pick {samples : List (Exact K)} (length : samples.length = n)
    (all : (places.filterMap id).Perm (List.range n)) :
    (numbers (pick places samples)).Perm (numbers samples) := by
  have own : numbers samples = numbers (pick ((List.range n).map some) samples) := by
    rw [← length, pick_range]
  rw [own]
  simp only [numbers, pick, List.filterMap_map]
  exact filterMap_places all rfl

theorem numberPairs_pick {xs ys : List (Exact K)} (length : xs.length = n)
    (length' : ys.length = n) (all : (places.filterMap id).Perm (List.range n)) :
    (numberPairs (pick places xs) (pick places ys)).Perm (numberPairs xs ys) := by
  have own : numberPairs xs ys = numberPairs (pick ((List.range n).map some) xs)
      (pick ((List.range n).map some) ys) := by
    rw [← length, pick_range, length, ← length', pick_range]
  rw [own]
  simp only [numberPairs, pick, List.zip_map', List.filterMap_map]
  exact filterMap_places all rfl

/-- Without rows in between, a column has as many entries that are no number as it had. -/
theorem droppedText?_pick {samples : List (Exact K)} (length : samples.length = n)
    (all : (places.filterMap id).Perm (List.range n)) (whole : none ∉ places) (label : String) :
    droppedText? label (pick places samples) = droppedText? label samples := by
  have given : (places.filterMap id).map some = places := by
    rw [List.map_filterMap]
    refine (List.filterMap_congr fun place member => ?_).trans List.filterMap_some
    cases place with
    | none => exact absurd member whole
    | some i => rfl
  have perm : (pick places samples).Perm samples := by
    have places_perm := all.map some
    rw [given, ← length] at places_perm
    have rows := places_perm.map fun place => (place.bind (samples[·]?)).getD nan
    rwa [← pick, ← pick, pick_range] at rows
  rw [droppedText?, droppedText?, (perm.filter isNaN).length_eq]

/-! ## §3 Reports -/

/-- What is reported is the same, and so is what is logged if no rows came in between. -/
def Reported {β γ : Type} (places : List (Option Nat)) (made other : β × γ) : Prop :=
  made.1 = other.1 ∧ (none ∉ places → made.2 = other.2)

theorem column_pick {columns : Table (List (Exact K))}
    (rows : ∀ column ∈ columns, column.2.length = n) (name : String) :
    Agrees (fun made samples => made = pick places samples ∧ samples.length = n)
      (column (pickColumns places columns) name) (column columns name) := by
  have found : Table.find? (pickColumns places columns) name =
      (columns.find? name).map (pick places) := by
    clear rows
    induction columns with
    | nil => rfl
    | cons first rest ih =>
      rw [pickColumns] at ih ⊢
      rw [List.map_cons, Table.find?_cons, Table.find?_cons, ih]
      split <;> rfl
  rw [column, column, found]
  cases own : columns.find? name with
  | none => exact .error _
  | some samples => exact .ok ⟨rfl, rows _ (Table.mem_of_find? own)⟩

section Reports

variable (all : (places.filterMap id).Perm (List.range n)) {outcomes : Table (List (Exact K))}
  (rows : ∀ column ∈ outcomes, column.2.length = n)

include all rows

theorem summarizeYear_agrees (year : Nat) :
    Agrees (Reported places) (summarizeYear (pickColumns places outcomes) year)
      (summarizeYear outcomes year) := by
  refine (column_pick rows _).bind ?_
  rintro _ net ⟨rfl, netRows⟩
  refine (column_pick rows _).bind ?_
  rintro _ benefits ⟨rfl, benefitsRows⟩
  refine (column_pick rows _).bind ?_
  rintro _ costs ⟨rfl, costsRows⟩
  refine .ok ⟨?_, fun whole => droppedText?_pick netRows all whole _⟩
  rw [stats_congr (numbers_pick netRows all), stats_congr (numbers_pick benefitsRows all),
    stats_congr (numbers_pick costsRows all)]

theorem summarizeYears_agrees (count year : Nat) :
    Agrees (List.Forall₂ (Reported places))
      (summarizeYears (pickColumns places outcomes) count year)
      (summarizeYears outcomes count year) := by
  induction count generalizing year with
  | zero => exact .ok .nil
  | succ count ih =>
    refine (summarizeYear_agrees all rows year).bind fun first first' same => ?_
    exact (ih (year + 1)).bind fun others others' rest => .ok (.cons same rest)

theorem contributions_agrees (npvMean : Exact K) (categories : List CategoryName) :
    Agrees Eq (contributions (pickColumns places outcomes) npvMean categories)
      (contributions outcomes npvMean categories) := by
  induction categories with
  | nil => exact .ok rfl
  | cons category rest ih =>
    refine (column_pick rows category.id).bind ?_
    rintro _ own ⟨rfl, ownRows⟩
    have means : mean (pick places own) = mean own :=
      congrArg Stats.mean (stats_congr (numbers_pick ownRows all))
    dsimp only
    rw [means]
    exact ih.bind fun others others' same => .ok (congrArg _ same)

end Reports

section Whole

variable [IsStrictOrderedRing K]

theorem ranking_pick (all : (places.filterMap id).Perm (List.range n))
    {metrics : Table (List (Exact K))} (rows : ∀ column ∈ metrics, column.2.length = n)
    {npv : List (Exact K)} (length : npv.length = n) (names : Table String) (topK : Option Int) :
    ranking (pickColumns places metrics) (pick places npv) names topK =
      ranking metrics npv names topK := by
  rw [ranking, ranking, pickColumns, List.map_map]
  refine congrArg
    (fun entries : List (SensitivityEntry (Exact K)) =>
      upTo topK (entries.mergeSort SensitivityEntry.before))
    (List.map_congr_left fun column member => ?_)
  have ownRows := rows column member
  have impact : correlation (pick places column.2) (pick places npv) = correlation column.2 npv :=
    correlation_congr (by simp [pick]) (ownRows.trans length.symm)
      (numberPairs_pick ownRows length all)
  dsimp only [Function.comp_apply]
  rw [impact]

/-- **A report of picked rows** is that of the tables, each row of which was picked once. -/
theorem summarize_agrees (all : (places.filterMap id).Perm (List.range n))
    {tables : TrialTables (Exact K)} (rows : tables.HasRows n) (formulas : Table (List (Exact K)))
    (categories : List CategoryName) (names : Table String) (years : Nat) (topK : Option Int) :
    Agrees (Reported places)
      (summarize { tables.pick places with formulas } categories names years topK)
      (summarize tables categories names years topK) := by
  have outcomes := rows tables.outcomes (by simp)
  refine (column_pick outcomes "npv").bind ?_
  rintro _ npv ⟨rfl, npvRows⟩
  refine (summarizeYears_agrees all outcomes years 1).bind fun yearly yearly' sameYears => ?_
  refine (column_pick outcomes "payback_months").bind ?_
  rintro _ payback ⟨rfl, paybackRows⟩
  have npvStats := stats_congr (numbers_pick npvRows all)
  have paybackStats := stats_congr (numbers_pick paybackRows all)
  dsimp only
  rw [npvStats]
  refine (contributions_agrees all (rows tables.categories (by simp)) _ categories).bind ?_
  rintro parts _ rfl
  have results : yearly.map Prod.fst = yearly'.map Prod.fst := by
    rw [← List.forall₂_eq_eq_eq, List.forall₂_map_left_iff, List.forall₂_map_right_iff]
    exact sameYears.imp fun _ _ same => same.1
  have percentiles : percentile (pick places payback) 50 = percentile payback 50 :=
    congrArg Stats.p50 paybackStats
  refine .ok ⟨?_, fun whole => ?_⟩
  · have ranked := ranking_pick all (rows tables.metrics (by simp)) npvRows names topK
    dsimp only [TrialTables.pick]
    rw [results, percentiles, ranked]
  · have texts : yearly = yearly' := by
      rw [← List.forall₂_eq_eq_eq]
      exact sameYears.imp fun _ _ same => Prod.ext same.1 (same.2 whole)
    rw [texts, droppedText?_pick npvRows all whole]

/-! ## §4 Whole -/

/-- **A report does not depend on the order of the trials, nor on trials without numbers.**
Whichever way the rows of all tables are reordered at once, the report and what is logged are the
same. And with rows in between in which no entry of an outcome, an input or a category is a number,
wherever they are put and whatever the formulas came to there, the report is the same. -/
theorem summarize_rows {tables : TrialTables (Exact K)} (rows : tables.HasRows n)
    (categories : List CategoryName) (names : Table String) (years : Nat) (topK : Option Int) :
    (∀ order : List Nat, order.Perm (List.range n) →
      summarize (tables.pick (order.map some)) categories names years topK =
        summarize tables categories names years topK) ∧
    ∀ (places : List (Option Nat)) (formulas : Table (List (Exact K))),
      (places.filterMap id).Perm (List.range n) →
      (summarize { tables.pick places with formulas } categories names years topK).map Prod.fst =
        (summarize tables categories names years topK).map Prod.fst := by
  constructor
  · intro order all
    have given : ((order.map some).filterMap id).Perm (List.range n) := by
      simpa [List.filterMap_map] using all
    have whole : none ∉ order.map some := by simp
    exact (summarize_agrees given rows (pickColumns (order.map some) tables.formulas) categories
      names years topK).eq fun _ _ same => Prod.ext same.1 (same.2 whole)
  · intro places formulas all
    exact (summarize_agrees all rows formulas categories names years topK).map_eq
      fun _ _ same => same.1

end Whole

/-- Three trials of one year, one of which has no worth. -/
noncomputable def threeTrials : TrialTables (Exact ℝ) :=
  { outcomes := [("npv", [nat 1, nan, nat 3]), ("payback_months", [nat 2, nan, nat 5]),
      ("benefits_y1", [nat 2, nan, nat 6]), ("costs_y1", [nat 1, nat 1, nat 3]),
      ("net_y1", [nat 1, nan, nat 3])]
    metrics := [("fee", [nat 4, nat 5, nat 7])]
    categories := [("income", [nat 2, nan, nat 6])]
    formulas := [] }

/-- The theorem at those trials, with the last one first, and with another one in between. -/
theorem summarize_rows_three :
    threeTrials.HasRows 3 ∧
      (∃ result, summarize threeTrials [⟨"income", "income"⟩] [] 1 none = .ok result) ∧
      summarize (threeTrials.pick [some 2, some 0, some 1]) [⟨"income", "income"⟩] [] 1 none =
        summarize threeTrials [⟨"income", "income"⟩] [] 1 none ∧
      (summarize (threeTrials.pick [some 0, none, some 1, some 2]) [⟨"income", "income"⟩] [] 1
        none).map Prod.fst =
        (summarize threeTrials [⟨"income", "income"⟩] [] 1 none).map Prod.fst := by
  have rows : threeTrials.HasRows 3 := by
    simp only [TrialTables.HasRows, threeTrials, List.forall_mem_cons]
    simp
  obtain ⟨reordered, inserted⟩ := summarize_rows rows [⟨"income", "income"⟩] [] 1 none
  exact ⟨rows, ⟨_, rfl⟩, reordered [2, 0, 1] (by decide),
    inserted [some 0, none, some 1, some 2] _ (by decide)⟩

end BusinessCase
