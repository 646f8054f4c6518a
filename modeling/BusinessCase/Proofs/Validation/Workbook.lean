/-
BusinessCase.Proofs.Validation.Workbook — which workbooks can be simulated.

`Sound` says what a workbook has to be, rule by rule and without mention of
problems. A validation finds nothing that stops a simulation exactly where all
its rules hold.

  §1 Soundness — `Distribution.Ordered`, `Workbook.Sound`.
  §2 Metrics   — values and estimates.
  §3 Ids       — repeated ids, strangers in categories.
  §4 Formulas  — entries, trees and cycles.
  §5 Whole     — `blocking_issues_eq_nil_iff`.
-/
import BusinessCase.Proofs.Dependency.Cycles
import BusinessCase.Proofs.Scalar.Order
import BusinessCase.Proofs.Validation.Expression
import BusinessCase.Validation.Workbook

namespace BusinessCase

open Formula

variable {limits : Limits} {w : Workbook}

/-! ## §1 Soundness -/

/-- The three bounds are finite and in order. -/
structure Distribution.Ordered (d : Distribution Float) : Prop where
  finite : d.low.isFinite ∧ d.mode.isFinite ∧ d.high.isFinite
  low_le : d.low ≤ d.mode
  le_high : d.mode ≤ d.high

/-- The formula with the first id refers to the second. -/
def Workbook.Refers (limits : Limits) (w : Workbook) (a b : String) : Prop :=
  ∃ entry ∈ w.formulaEntries, entry.id = a ∧
    ∃ e, Spells limits entry.expression e ∧ b ∈ e.names

/-- A workbook without any fault that stops a simulation. -/
structure Workbook.Sound (limits : Limits) (w : Workbook) : Prop where
  /-- No id is used twice. -/
  distinct : w.ids.Nodup
  /-- Categories list metrics. -/
  members : ∀ category ∈ w.categories, ∀ id ∈ category.metricIds, ∃ m ∈ w.metrics, m.id = id
  /-- Values are finite. -/
  values : ∀ m ∈ w.metrics, ∀ x, m.value = some x → x.isFinite
  /-- Estimates have finite bounds in order. -/
  estimates : ∀ m ∈ w.metrics, ∀ d, m.distribution = some d → d.Ordered
  /-- Formulas are well formed, and use what there is. -/
  formulas : ∀ entry ∈ w.formulaEntries,
    ∃ e, Spells limits entry.expression e ∧ Usable w.ids e
  /-- No formula depends on itself. -/
  acyclic : ∀ id, ¬ Relation.TransGen (w.Refers limits) id id

/-! ## §2 Metrics -/

theorem valueIssues_eq_nil_iff {id : String} {x : Float} :
    valueIssues id x = [] ↔ x.isFinite := by
  simp [valueIssues]

/-- Finite bounds have no problem exactly if they are in order. -/
theorem orderIssues_eq_nil_iff {id : String} {d : Distribution Float} (low : d.low.isFinite)
    (mode : d.mode.isFinite) (high : d.high.isFinite) :
    orderIssues id d = [] ↔ d.low ≤ d.mode ∧ d.mode ≤ d.high := by
  have lowNumber := isNaN_of_isFinite low
  have modeNumber := isNaN_of_isFinite mode
  have highNumber := isNaN_of_isFinite high
  rw [← float_not_lt lowNumber modeNumber, ← float_not_lt modeNumber highNumber]
  unfold orderIssues
  split
  · next reversed =>
    -- The bounds cannot be in order one by one where the outer two are not.
    have outer : ¬ (d.low ≤ d.mode ∧ d.mode ≤ d.high) := fun order =>
      (float_not_lt lowNumber highNumber).mpr
        (float_le_trans lowNumber modeNumber highNumber order.1 order.2) reversed
    rw [float_not_lt lowNumber modeNumber, float_not_lt modeNumber highNumber]
    simpa using outer
  · simp

theorem Distribution.issues_eq_nil_iff {id : String} {d : Distribution Float} :
    d.issues id = [] ↔ d.Ordered := by
  by_cases finite : d.low.isFinite ∧ d.mode.isFinite ∧ d.high.isFinite
  · obtain ⟨low, mode, high⟩ := finite
    have whole : d.issues id = orderIssues id d := by simp [Distribution.issues, low, mode, high]
    rw [whole, orderIssues_eq_nil_iff low mode high]
    exact ⟨fun order => ⟨⟨low, mode, high⟩, order.1, order.2⟩,
      fun ordered => ⟨ordered.low_le, ordered.le_high⟩⟩
  · have refused : d.issues id ≠ [] := by
      unfold Distribution.issues
      dsimp only
      split
      · next nothing => exact absurd (by simpa using nothing) finite
      · next missing => simpa using missing
    exact iff_of_false refused fun ordered => finite ordered.finite

theorem Metric.issues_eq_nil_iff {m : Metric} :
    m.issues = [] ↔
      (∀ x, m.value = some x → x.isFinite) ∧ ∀ d, m.distribution = some d → d.Ordered := by
  rw [Metric.issues, List.append_eq_nil_iff]
  refine and_congr ?_ ?_
  · cases m.value <;> simp [valueIssues_eq_nil_iff]
  · cases m.distribution <;> simp [Distribution.issues_eq_nil_iff]

/-! ## §3 Ids -/

theorem repeatedIdIssues_eq_nil_iff {seen ids : List String} :
    repeatedIdIssues seen ids = [] ↔ ids.Nodup ∧ ∀ id ∈ ids, id ∉ seen := by
  induction ids generalizing seen with
  | nil => simp [repeatedIdIssues]
  | cons id rest ih =>
    rw [repeatedIdIssues, List.append_eq_nil_iff, ih]
    simp only [List.contains_eq_mem, decide_eq_true_eq, ite_eq_right_iff, reduceCtorEq, imp_false,
      List.nodup_cons, List.mem_cons, forall_eq_or_imp, not_or]
    constructor
    · rintro ⟨unseen, nodup, apart⟩
      exact ⟨⟨fun again => (apart id again).1 rfl, nodup⟩, unseen, fun b later => (apart b later).2⟩
    · rintro ⟨⟨fresh, nodup⟩, unseen, apart⟩
      exact ⟨unseen, nodup, fun b later => ⟨fun same => fresh (same ▸ later), apart b later⟩⟩

theorem Category.issues_eq_nil_iff {category : Category} :
    category.issues w = [] ↔ ∀ id ∈ category.metricIds, ∃ m ∈ w.metrics, m.id = id := by
  have strays_eq : category.strays w = [] ↔
      ∀ id ∈ category.metricIds, ∃ m ∈ w.metrics, m.id = id := by
    simp [Category.strays, List.filter_eq_nil_iff]
  rw [← strays_eq, Category.issues]
  simp

/-! ## §4 Formulas -/

theorem Entry.issues_eq_nil_iff {entry : Entry} :
    entry.issues limits w = [] ↔
      ∃ e, Spells limits entry.expression e ∧ Usable w.ids e := by
  rw [← checkExpression_snd_eq_none_iff, Entry.issues, Entry.check, Option.toList_eq_nil_iff]

theorem entry?_id {m : Metric} {entry : Entry} (h : m.entry? = some entry) : entry.id = m.id := by
  obtain ⟨text, -, rfl⟩ := Option.map_eq_some_iff.mp h
  rfl

/-- What is made of some items, each under the id of its item, keeps the order of the ids. -/
theorem ids_filterMap_sublist {β γ : Type} {f : β → Option γ} {idOf : β → String}
    {newId : γ → String} (same : ∀ item made, f item = some made → newId made = idOf item)
    (items : List β) : ((items.filterMap f).map newId).Sublist (items.map idOf) := by
  induction items with
  | nil => exact .slnil
  | cons item rest ih =>
    rw [List.filterMap_cons]
    cases found : f item with
    | none => exact ih.cons (idOf item)
    | some made =>
      rw [List.map_cons, List.map_cons, same item made found]
      exact ih.cons_cons (idOf item)

/-- Formulas stand under ids of the workbook, in the same order. -/
theorem formulaEntries_sublist (w : Workbook) :
    (w.formulaEntries.map Entry.id).Sublist w.ids := by
  have metrics : ((w.metrics.filterMap Metric.entry?).map Entry.id).Sublist
      (w.metrics.map Metric.id) :=
    ids_filterMap_sublist (fun _ _ => entry?_id) w.metrics
  have formulas : (w.formulas.map NamedFormula.entry).map Entry.id = w.formulas.map NamedFormula.id :=
    List.map_map
  rw [Workbook.formulaEntries, List.map_append, formulas]
  exact metrics.append_right _

/-- Where no id is used twice, the trees of the formulas are a table as they stand. -/
theorem trees_of_distinct (limits : Limits) (distinct : w.ids.Nodup) :
    (w.trees limits).names.Nodup ∧
      w.trees limits = w.formulaEntries.filterMap fun entry =>
        (entry.check limits w).1.map (entry.id, ·) := by
  have order : ((w.formulaEntries.filterMap fun entry =>
      (entry.check limits w).1.map (entry.id, ·)).map Prod.fst).Sublist
        (w.formulaEntries.map Entry.id) := by
    refine ids_filterMap_sublist (fun entry made found => ?_) w.formulaEntries
    obtain ⟨e, -, rfl⟩ := Option.map_eq_some_iff.mp found
    rfl
  have nodup := distinct.sublist (order.trans (formulaEntries_sublist w))
  have whole := Table.ofEntries_of_nodup nodup
  exact ⟨by rw [Workbook.trees, whole]; exact nodup, whole⟩

/-- The tree under an id is the one of the formula with that id. -/
theorem trees_find?_eq_some_iff (distinct : w.ids.Nodup) {id : String} {e : Expr Float} :
    (w.trees limits).find? id = some e ↔
      ∃ entry ∈ w.formulaEntries, entry.id = id ∧ Spells limits entry.expression e := by
  obtain ⟨nodup, whole⟩ := trees_of_distinct limits distinct
  rw [Table.find?_eq_some_iff nodup, whole, List.mem_filterMap]
  refine exists_congr fun entry => and_congr_right fun _ => ?_
  rw [Option.map_eq_some_iff]
  constructor
  · rintro ⟨e', found, same⟩
    cases same
    exact ⟨rfl, checkExpression_fst_eq_some_iff.mp found⟩
  · rintro ⟨rfl, spells⟩
    exact ⟨e, checkExpression_fst_eq_some_iff.mpr spells, rfl⟩

/-- The references among the trees are those of the workbook. -/
theorem refers_trees (distinct : w.ids.Nodup) {leaves : List String} :
    (DependencyMap.ofFormulas (w.trees limits) leaves).Refers = w.Refers limits := by
  funext a b
  refine propext (DependencyMap.refers_ofFormulas.trans ⟨?_, ?_⟩)
  · rintro ⟨e, found, refers⟩
    obtain ⟨entry, member, same, spells⟩ := (trees_find?_eq_some_iff distinct).mp found
    rw [Expr.references_eq spells.isProper] at refers
    exact ⟨entry, member, same, e, spells, refers⟩
  · rintro ⟨entry, member, same, e, spells, refers⟩
    refine ⟨e, (trees_find?_eq_some_iff distinct).mpr ⟨entry, member, same, spells⟩, ?_⟩
    rwa [Expr.references_eq spells.isProper]

/-- Nothing is on a cycle exactly if no formula depends on itself. -/
theorem cycle_eq_nil_iff (distinct : w.ids.Nodup) :
    w.cycle limits = [] ↔ ∀ id, ¬ Relation.TransGen (w.Refers limits) id id := by
  simp only [Workbook.cycle, List.eq_nil_iff_forall_not_mem, DependencyMap.mem_cycles_iff,
    DependencyMap.OnCycle, refers_trees distinct]

/-! ## §5 Whole -/

/-- Every problem of the list stops a simulation. -/
def AllBlocking (issues : List Issue) : Prop := ∀ issue ∈ issues, issue.severity = .error

theorem AllBlocking.blocking_eq {issues : List Issue} (h : AllBlocking issues) :
    blocking issues = issues := by
  rw [blocking, List.filter_eq_self]
  simpa [AllBlocking] using h

/-- Every problem of the list is a defect. -/
def AllDefects (issues : List Issue) : Prop := ∀ issue ∈ issues, issue.IsDefect

theorem AllDefects.blocking_eq {issues : List Issue} (h : AllDefects issues) :
    blocking issues = issues :=
  AllBlocking.blocking_eq fun issue member => (h issue member).severity

theorem AllDefects.append {first second : List Issue} (h : AllDefects first)
    (h' : AllDefects second) : AllDefects (first ++ second) :=
  List.forall_mem_append.mpr ⟨h, h'⟩

theorem AllDefects.flatMap {β : Type} {items : List β} {f : β → List Issue}
    (h : ∀ item ∈ items, AllDefects (f item)) : AllDefects (items.flatMap f) := by
  intro issue member
  obtain ⟨item, listed, found⟩ := List.mem_flatMap.mp member
  exact h item listed issue found

theorem allDefects_nil : AllDefects [] := List.forall_mem_nil _

theorem allDefects_singleton {issue : Issue} (h : issue.IsDefect) : AllDefects [issue] :=
  List.forall_mem_singleton.mpr h

theorem allDefects_repeatedIdIssues (seen ids : List String) :
    AllDefects (repeatedIdIssues seen ids) := by
  induction ids generalizing seen with
  | nil => exact allDefects_nil
  | cons id rest ih =>
    refine AllDefects.append ?_ (ih (id :: seen))
    split
    · exact allDefects_singleton ⟨rfl, by simp⟩
    · exact allDefects_nil

theorem allDefects_category (w : Workbook) (category : Category) :
    AllDefects (category.issues w) := by
  rw [Category.issues]
  split
  · exact allDefects_nil
  · exact allDefects_singleton ⟨rfl, by simp⟩

theorem isDefect_boundIssue (id field message : String) :
    (boundIssue id field message).IsDefect :=
  ⟨rfl, by simp [boundIssue]⟩

theorem allDefects_orderIssues (id : String) (d : Distribution Float) :
    AllDefects (orderIssues id d) := by
  unfold orderIssues
  split
  · exact AllDefects.append (allDefects_singleton (isDefect_boundIssue _ _ _))
      (allDefects_singleton (isDefect_boundIssue _ _ _))
  · refine AllDefects.append ?_ ?_ <;> split
    all_goals first | exact allDefects_nil | exact allDefects_singleton (isDefect_boundIssue _ _ _)

theorem allDefects_metric (m : Metric) : AllDefects m.issues := by
  refine AllDefects.append ?_ ?_
  · cases m.value with
    | none => exact allDefects_nil
    | some x =>
      simp only [Option.elim_some, valueIssues]
      split
      · exact allDefects_nil
      · exact allDefects_singleton ⟨rfl, by simp⟩
  · cases m.distribution with
    | none => exact allDefects_nil
    | some d =>
      simp only [Option.elim_some, Distribution.issues]
      split
      · exact allDefects_orderIssues m.id d
      · exact List.forall_mem_map.mpr fun bound _ => isDefect_boundIssue _ _ _

theorem allDefects_entry (entry : Entry) : AllDefects (entry.issues limits w) := fun _ member =>
  checkExpression_isDefect (Option.mem_toList.mp member)

theorem allDefects_metricEntry (m : Metric) :
    AllDefects (m.entry?.elim [] (Entry.issues limits w)) := by
  cases m.entry? with
  | none => exact allDefects_nil
  | some entry => exact allDefects_entry entry

theorem allBlocking_cycleIssues (cycle : List String) : AllBlocking (cycleIssues cycle) := by
  unfold cycleIssues
  split <;> simp [AllBlocking]

/-- A category that is missing stops nothing. -/
theorem blocking_categoryIssues (m : Metric) : blocking (m.categoryIssues w) = [] := by
  unfold Metric.categoryIssues
  split <;> simp [blocking]

/-- The problems that stop a simulation are all but those about missing categories. -/
theorem blocking_issues (limits : Limits) (w : Workbook) :
    blocking (w.issues limits) =
      repeatedIdIssues [] w.ids ++ w.categories.flatMap (Category.issues w) ++
        w.metrics.flatMap (fun m => m.issues ++ m.entry?.elim [] (Entry.issues limits w)) ++
        w.formulas.flatMap (fun f => f.entry.issues limits w) ++
        cycleIssues (w.cycle limits) := by
  have metric (m : Metric) :
      blocking (m.issues ++ m.categoryIssues w ++ m.entry?.elim [] (Entry.issues limits w)) =
        m.issues ++ m.entry?.elim [] (Entry.issues limits w) := by
    have split_eq (a b c : List Issue) :
        blocking (a ++ b ++ c) = blocking a ++ blocking b ++ blocking c := by
      simp [blocking]
    rw [split_eq, (allDefects_metric m).blocking_eq, blocking_categoryIssues,
      (allDefects_metricEntry m).blocking_eq, List.append_nil]
  have split_eq (a b c d e : List Issue) : blocking (a ++ b ++ c ++ d ++ e) =
      blocking a ++ blocking b ++ blocking c ++ blocking d ++ blocking e := by
    simp [blocking]
  have metrics (ms : List Metric) : blocking (ms.flatMap fun m =>
      m.issues ++ m.categoryIssues w ++ m.entry?.elim [] (Entry.issues limits w)) =
        ms.flatMap fun m => m.issues ++ m.entry?.elim [] (Entry.issues limits w) := by
    rw [blocking, List.filter_flatMap]
    exact congrArg (fun f => ms.flatMap f) (funext metric)
  have categories : AllDefects (w.categories.flatMap (Category.issues w)) :=
    .flatMap fun category _ => allDefects_category w category
  have formulas : AllDefects (w.formulas.flatMap fun f => f.entry.issues limits w) :=
    .flatMap fun f _ => allDefects_entry f.entry
  rw [Workbook.issues, split_eq, (allDefects_repeatedIdIssues _ _).blocking_eq,
    categories.blocking_eq, metrics, formulas.blocking_eq, (allBlocking_cycleIssues _).blocking_eq]

/-- The entries are the formulas of metrics and the named ones. -/
theorem forall_formulaEntries_iff {p : Entry → Prop} :
    (∀ entry ∈ w.formulaEntries, p entry) ↔
      (∀ m ∈ w.metrics, ∀ entry, m.entry? = some entry → p entry) ∧
        ∀ f ∈ w.formulas, p f.entry := by
  simp only [Workbook.formulaEntries, List.forall_mem_append, List.forall_mem_map,
    List.mem_filterMap]
  refine and_congr_left fun _ => ⟨fun h m listed entry found => h entry ⟨m, listed, found⟩, ?_⟩
  rintro h entry ⟨m, listed, found⟩
  exact h m listed entry found

theorem metric_entry_issues_eq_nil_iff {m : Metric} :
    m.entry?.elim [] (Entry.issues limits w) = [] ↔
      ∀ entry, m.entry? = some entry → entry.issues limits w = [] := by
  cases m.entry? <;> simp

theorem cycleIssues_eq_nil_iff {cycle : List String} : cycleIssues cycle = [] ↔ cycle = [] := by
  simp [cycleIssues]

/-- **A validation finds nothing that stops a simulation exactly in a sound workbook.** -/
theorem blocking_issues_eq_nil_iff : blocking (w.issues limits) = [] ↔ w.Sound limits := by
  have entries : (∀ entry ∈ w.formulaEntries, entry.issues limits w = []) ↔
      ∀ entry ∈ w.formulaEntries, ∃ e, Spells limits entry.expression e ∧ Usable w.ids e :=
    forall₂_congr fun _ _ => Entry.issues_eq_nil_iff
  rw [blocking_issues]
  simp only [List.append_eq_nil_iff, List.flatMap_eq_nil_iff, repeatedIdIssues_eq_nil_iff,
    Category.issues_eq_nil_iff, Metric.issues_eq_nil_iff, metric_entry_issues_eq_nil_iff,
    cycleIssues_eq_nil_iff]
  constructor
  · rintro ⟨⟨⟨⟨⟨distinct, -⟩, members⟩, metrics⟩, formulas⟩, cycle⟩
    exact
      { distinct, members
        values := fun m listed => (metrics m listed).1.1
        estimates := fun m listed => (metrics m listed).1.2
        formulas := entries.mp (forall_formulaEntries_iff.mpr
          ⟨fun m listed => (metrics m listed).2, formulas⟩)
        acyclic := (cycle_eq_nil_iff distinct).mp cycle }
  · intro sound
    obtain ⟨metrics, formulas⟩ := forall_formulaEntries_iff.mp (entries.mpr sound.formulas)
    exact ⟨⟨⟨⟨⟨sound.distinct, by simp⟩, sound.members⟩,
      fun m listed => ⟨⟨sound.values m listed, sound.estimates m listed⟩, metrics m listed⟩⟩,
      formulas⟩, (cycle_eq_nil_iff sound.distinct).mpr sound.acyclic⟩

end BusinessCase
