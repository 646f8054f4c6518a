/-
BusinessCase.Proofs.Simulation.Columns — the columns of a run, found by name.

A run has a column for every id of its plan, for the worth and the payback, and
three for each year. Their names are all different: what comes before the
number of the year tells the three of a year apart, and the number tells the
years. So a report of the run finds each column, and what it says of a year it
says of the flows of that year.

  §1 Ids     — `idColumns_find?` and `contributions_eq_ok`.
  §2 Years   — `outcomes_names_nodup`, and the columns of a year.
  §3 Reports — `summarize_ofTrials`.
-/
import BusinessCase.Proofs.Dependency.Ids
import BusinessCase.Proofs.Table
import BusinessCase.Statistics.Report
import Std.Data.String.ToNat

namespace BusinessCase

open Scalar

variable {α : Type} [Scalar α]

/-! ## §1 Ids -/

/-- Every id that is asked for has a column. -/
theorem idColumns_find? (trials : List (Trial α)) {ids : List String} (f : Trial α → Table α)
    {id : String} (listed : id ∈ ids) :
    Table.find? (idColumns trials ids f) id =
      some (trials.map fun t => ((f t).find? id).getD nan) := by
  have names : Table.names (idColumns trials ids f) = firstAppearances ids := by
    simp [Table.names, idColumns, outcomeColumn, Function.comp_def]
  have nodup : (Table.names (idColumns trials ids f)).Nodup := names ▸ firstAppearances_nodup ids
  rw [Table.find?_eq_some_iff nodup]
  exact List.mem_map.mpr ⟨id, mem_firstAppearances.mpr listed, rfl⟩

/-- What is reported of categories that all have a column. -/
theorem contributions_eq_ok {β : Type} {samples : Table (List α)} (npvMean : α)
    {items : List β} {name : β → CategoryName} {own : β → List α}
    (found : ∀ item ∈ items, samples.find? (name item).id = some (own item)) :
    contributions samples npvMean (items.map name) = .ok (items.map fun item =>
      ⟨(name item).id, (name item).name, mean (own item),
        percentageOf npvMean (mean (own item))⟩) := by
  induction items with
  | nil => rfl
  | cons item rest ih =>
    obtain ⟨first, others⟩ := List.forall_mem_cons.mp found
    rw [List.map_cons, contributions, column, first, ih others]
    rfl

/-- The contributions of a plan's categories can always be reported. -/
theorem exists_contributions (plan : Plan α) (trials : List (Trial α)) (npvMean : α) :
    ∃ parts, contributions (TrialTables.ofTrials plan trials).categories npvMean
      (plan.categories.map fun c => CategoryName.mk c.id c.name) = .ok parts :=
  ⟨_, contributions_eq_ok npvMean fun _ listed =>
    idColumns_find? trials _ (List.mem_map_of_mem listed)⟩

/-! ## §2 Years -/

/-- What stands before the number of the year in the names of its columns. -/
def yearlyFlows : List String := ["benefits", "costs", "net"]

theorem yearColumn_toList (what : String) (year : Nat) :
    (yearColumn what year).toList = what.toList ++ ('_' :: 'y' :: year.repr.toList) := by
  simp [yearColumn]

/-- Their first two characters tell them apart. -/
theorem yearlyFlows_take : ∀ what ∈ yearlyFlows, ∀ what' ∈ yearlyFlows,
    what.toList.take 2 = what'.toList.take 2 → what = what' := by
  decide

theorem yearColumn_take {what : String} (known : what ∈ yearlyFlows) (year : Nat) :
    (yearColumn what year).toList.take 2 = what.toList.take 2 := by
  have long : 2 ≤ what.toList.length := by
    revert what
    decide
  rw [yearColumn_toList, List.take_append_of_le_length long]

theorem yearColumn_inj {what what' : String} (known : what ∈ yearlyFlows)
    (known' : what' ∈ yearlyFlows) {year year' : Nat}
    (same : yearColumn what year = yearColumn what' year') : what = what' ∧ year = year' := by
  have flow : what = what' := by
    have start := yearColumn_take known year
    rw [same, yearColumn_take known' year'] at start
    exact yearlyFlows_take what known what' known' start.symm
  subst flow
  have chars := congrArg String.toList same
  rw [yearColumn_toList, yearColumn_toList] at chars
  have number : year.repr.toList = year'.repr.toList := by simpa using chars
  exact ⟨rfl, Nat.repr_inj.mp (String.toList_inj.mp number)⟩

/-- The names of the columns of one year. -/
def yearNames (year : Nat) : List String := yearlyFlows.map (yearColumn · year)

theorem yearColumns_names (trials : List (Trial α)) (year : Nat) :
    Table.names (yearColumns trials year) = yearNames year := by
  simp [Table.names, yearColumns, outcomeColumn, yearNames, yearlyFlows, yearColumn,
    String.append_assoc]

theorem yearNames_nodup (year : Nat) : (yearNames year).Nodup :=
  List.Nodup.map_on (fun _ known _ known' same => (yearColumn_inj known known' same).1) (by decide)

theorem yearNames_disjoint {year year' : Nat} (distinct : year ≠ year') :
    List.Disjoint (yearNames year) (yearNames year') := by
  intro name member member'
  obtain ⟨what, known, rfl⟩ := List.mem_map.mp member
  obtain ⟨what', known', same⟩ := List.mem_map.mp member'
  exact distinct (yearColumn_inj known known' same.symm).2

/-- **No two columns of outcomes share a name.** -/
theorem outcomes_names_nodup (plan : Plan α) (trials : List (Trial α)) :
    (Table.names (TrialTables.ofTrials plan trials).outcomes).Nodup := by
  have names : Table.names (TrialTables.ofTrials plan trials).outcomes =
      "npv" :: "payback_months" ::
        (List.range plan.horizon.years).flatMap fun i => yearNames (i + 1) := by
    simp only [← yearColumns_names trials]
    simp [TrialTables.ofTrials, Table.names, outcomeColumn, List.map_flatMap]
  have other {name : String}
      (start : ∀ what ∈ yearlyFlows, name.toList.take 2 ≠ what.toList.take 2) :
      name ∉ (List.range plan.horizon.years).flatMap fun i => yearNames (i + 1) := by
    intro member
    obtain ⟨i, -, named⟩ := List.mem_flatMap.mp member
    obtain ⟨what, known, rfl⟩ := List.mem_map.mp named
    exact start what known (yearColumn_take known (i + 1))
  have years : ((List.range plan.horizon.years).flatMap fun i => yearNames (i + 1)).Nodup := by
    refine List.nodup_flatMap.mpr ⟨fun i _ => yearNames_nodup (i + 1), ?_⟩
    exact List.nodup_range.imp fun distinct => yearNames_disjoint fun same =>
      distinct (Nat.succ.inj same)
  rw [names]
  refine List.nodup_cons.mpr ⟨?_, List.nodup_cons.mpr ⟨other (by decide), years⟩⟩
  exact List.not_mem_cons_of_ne_of_not_mem (by decide) (other (by decide))

/-- The flows of a year under their name. -/
theorem yearColumn_find? (plan : Plan α) (trials : List (Trial α)) {i : Nat}
    (within : i < plan.horizon.years) :
    column (TrialTables.ofTrials plan trials).outcomes (yearColumn "benefits" (i + 1)) =
        .ok (trials.map fun t => t.benefits.getD i nan) ∧
      column (TrialTables.ofTrials plan trials).outcomes (yearColumn "costs" (i + 1)) =
        .ok (trials.map fun t => t.costs.getD i nan) ∧
      column (TrialTables.ofTrials plan trials).outcomes (yearColumn "net" (i + 1)) =
        .ok (trials.map fun t => t.net.getD i nan) := by
  have found {name : String} {samples : List α}
      (listed : (name, samples) ∈ yearColumns trials (i + 1)) :
      column (TrialTables.ofTrials plan trials).outcomes name = .ok samples := by
    have member : (name, samples) ∈ (TrialTables.ofTrials plan trials).outcomes :=
      List.mem_cons_of_mem _ (List.mem_cons_of_mem _
        (List.mem_flatMap.mpr ⟨i, List.mem_range.mpr within, listed⟩))
    rw [column, (Table.find?_eq_some_iff (outcomes_names_nodup plan trials)).mpr member]
  have name (what : String) : yearColumn what (i + 1) = what ++ ("_y" ++ toString (i + 1)) := by
    rw [yearColumn, String.append_assoc]
  simp only [name]
  exact ⟨found (by simp [yearColumns, outcomeColumn]), found (by simp [yearColumns, outcomeColumn]),
    found (by simp [yearColumns, outcomeColumn])⟩

/-! ## §3 Reports -/

/-- What a report of trials says of a year. -/
def yearlyResultOf (trials : List (Trial α)) (i : Nat) : YearlyResult α :=
  { year := i + 1
    benefits := Stats.of (trials.map fun t => t.benefits.getD i nan)
    costs := Stats.of (trials.map fun t => t.costs.getD i nan)
    net := Stats.of (trials.map fun t => t.net.getD i nan) }

/-- Years that all have columns are reported one after the other. -/
theorem summarizeYears_eq_ok {outcomes : Table (List α)} {count year : Nat}
    {result : Nat → YearlyResult α × Option String}
    (found : ∀ i < count, summarizeYear outcomes (year + i) = .ok (result i)) :
    summarizeYears outcomes count year = .ok ((List.range count).map result) := by
  induction count generalizing year result with
  | zero => rfl
  | succ count ih =>
    have others := @ih (year + 1) (fun i => result (i + 1)) fun i within => by
      rw [Nat.add_assoc, Nat.add_comm 1]
      exact found (i + 1) (Nat.succ_lt_succ within)
    rw [summarizeYears, ← Nat.add_zero year, found 0 (Nat.succ_pos count), Nat.add_zero, others,
      List.range_succ_eq_map, List.map_cons, List.map_map]
    rfl

/-- **A report of trials has all it needs**, and says of the worth and of each year what the trials
say. -/
theorem summarize_ofTrials (plan : Plan α) (trials : List (Trial α)) (names : Table String)
    (topK : Option Int) :
    ∃ report log, summarize (TrialTables.ofTrials plan trials)
        (plan.categories.map fun c => ⟨c.id, c.name⟩) names plan.horizon.years topK =
          .ok (report, log) ∧
      report.npv = Stats.of (trials.map Trial.npv) ∧
      report.years = (List.range plan.horizon.years).map (yearlyResultOf trials) := by
  have npv : column (TrialTables.ofTrials plan trials).outcomes "npv" =
      .ok (trials.map Trial.npv) := rfl
  have payback : column (TrialTables.ofTrials plan trials).outcomes "payback_months" =
      .ok (trials.map fun t => t.payback.toScalar) := rfl
  have years := @summarizeYears_eq_ok α _ (TrialTables.ofTrials plan trials).outcomes
    plan.horizon.years 1
    (fun i => (yearlyResultOf trials i, droppedText? ("Net cash flow, year " ++ toString (i + 1))
      (trials.map fun t => t.net.getD i nan))) fun i within => by
    obtain ⟨benefits, costs, net⟩ := yearColumn_find? plan trials within
    rw [Nat.add_comm, summarizeYear, net, benefits, costs]
    rfl
  obtain ⟨parts, reported⟩ :=
    exists_contributions plan trials (Stats.of (trials.map Trial.npv)).mean
  let report : Report α :=
    { npv := Stats.of (trials.map Trial.npv)
      medianPayback := percentile (trials.map fun t => t.payback.toScalar) 50
      years := (List.range plan.horizon.years).map (yearlyResultOf trials)
      contributions := parts
      sensitivity := ranking (TrialTables.ofTrials plan trials).metrics (trials.map Trial.npv) names
        topK }
  obtain ⟨log, done⟩ : ∃ log, summarize (TrialTables.ofTrials plan trials)
      (plan.categories.map fun c => ⟨c.id, c.name⟩) names plan.horizon.years topK =
        .ok (report, log) := by
    rw [summarize, npv, years, payback]
    dsimp only [bind, Except.bind]
    rw [reported, List.map_map]
    exact ⟨_, rfl⟩
  exact ⟨report, log, done, rfl, rfl⟩

end BusinessCase
