/-
BusinessCase.Proofs.Validation.Cycles — the cycles that a validation reports.

An id may be used twice, and a formula may have no tree. The cycles of a
workbook are those of the last formula with a tree under each id, whatever else
is wrong with the workbook.

  §1 Standing — `Workbook.Stands`, `Workbook.Depends`.
  §2 Cycles   — `mem_cycle_iff`.
  §3 Kinds    — no other problem is a cycle: `find?_circular`.
  §4 Room     — places on the stack make no difference to what is found.
-/
import BusinessCase.Proofs.Validation.Faults
import BusinessCase.Proofs.Formula.Descent

namespace BusinessCase

open Formula

variable {limits : Limits} {w : Workbook} {id : String} {e : Expr Float}

/-! ## §1 Standing -/

/-- The tree is that of the last formula with the id that has a tree at all. -/
def Workbook.Stands (limits : Limits) (w : Workbook) (id : String) (e : Expr Float) : Prop :=
  ∃ before entry after, w.formulaEntries = before ++ entry :: after ∧ entry.id = id ∧
    Spells limits entry.expression e ∧
    ∀ later ∈ after, later.id = id → ∀ other, ¬ Spells limits later.expression other

/-- The formula that stands for the first id refers to the second. -/
def Workbook.Depends (limits : Limits) (w : Workbook) (a b : String) : Prop :=
  ∃ e, w.Stands limits a e ∧ b ∈ e.names

/-- What a formula adds to the trees. -/
theorem namedTree_eq_some_iff {entry : Entry} :
    (entry.check limits w).1.map (entry.id, ·) = some (id, e) ↔
      entry.id = id ∧ Spells limits entry.expression e := by
  rw [Option.map_eq_some_iff, Entry.check]
  simp only [checkExpression_fst_eq_some_iff, Prod.mk.injEq]
  constructor
  · rintro ⟨_, spells, same, rfl⟩
    exact ⟨same, spells⟩
  · rintro ⟨same, spells⟩
    exact ⟨e, spells, same, rfl⟩

/-- The trees of some formulas name none that has no tree among them. -/
theorem not_mem_names_namedTrees {entries : List Entry} :
    id ∉ Table.names (entries.filterMap fun entry => (entry.check limits w).1.map (entry.id, ·)) ↔
      ∀ entry ∈ entries, entry.id = id → ∀ other, ¬ Spells limits entry.expression other := by
  rw [Table.names, List.mem_map]
  constructor
  · intro unnamed entry member same other spells
    exact unnamed ⟨(id, other),
      List.mem_filterMap.mpr ⟨entry, member, namedTree_eq_some_iff.mpr ⟨same, spells⟩⟩, rfl⟩
  · rintro without ⟨⟨_, other⟩, member, rfl⟩
    obtain ⟨entry, listed, made⟩ := List.mem_filterMap.mp member
    obtain ⟨same, spells⟩ := namedTree_eq_some_iff.mp made
    exact without entry listed same other spells

/-- **Under every id stands the tree of the last formula that has one.** -/
theorem trees_find?_eq_some_iff_stands :
    (w.trees limits).find? id = some e ↔ w.Stands limits id e := by
  rw [Workbook.trees, Table.find?_ofEntries_eq_some_iff]
  constructor
  · rintro ⟨before, after, split, unnamed⟩
    obtain ⟨front, back, entries, -, rest⟩ := List.filterMap_eq_append_iff.mp split
    obtain ⟨skipped, entry, later, rfl, -, made, rfl⟩ := List.filterMap_eq_cons_iff.mp rest
    obtain ⟨same, spells⟩ := namedTree_eq_some_iff.mp made
    exact ⟨front ++ skipped, entry, later, by rw [entries, List.append_assoc], same, spells,
      not_mem_names_namedTrees.mp unnamed⟩
  · rintro ⟨before, entry, after, entries, same, spells, without⟩
    have made := namedTree_eq_some_iff (w := w).mpr ⟨same, spells⟩
    exact ⟨_, _, by rw [entries, List.filterMap_append, List.filterMap_cons, made],
      not_mem_names_namedTrees.mpr without⟩

/-! ## §2 Cycles -/

/-- The references among the trees are those of the formulas that stand. -/
theorem refers_trees_eq_depends {leaves : List String} :
    (DependencyMap.ofFormulas (w.trees limits) leaves).Refers = w.Depends limits := by
  funext a b
  refine propext (DependencyMap.refers_ofFormulas.trans (exists_congr fun e => ?_))
  rw [trees_find?_eq_some_iff_stands]
  refine and_congr_right ?_
  rintro ⟨_, _, _, _, _, spells, -⟩
  rw [Expr.references_eq spells.isProper]

/-- **The ids on cycles are those that depend on themselves.** -/
theorem mem_cycle_iff : id ∈ w.cycle limits ↔ Relation.TransGen (w.Depends limits) id id := by
  rw [Workbook.cycle, DependencyMap.mem_cycles_iff, DependencyMap.OnCycle, refers_trees_eq_depends]

theorem cycle_nodup : (w.cycle limits).Nodup := DependencyMap.cycles_nodup

/-! ## §3 Kinds -/

/-- **A cycle is reported as one, and nothing else is.** -/
theorem filter_circular (limits : Limits) (w : Workbook) :
    (blocking (w.issues limits)).filter (·.kind = .circularDependency) =
      cycleIssues (w.cycle limits) := by
  have ids := allDefects_repeatedIdIssues [] w.ids
  have categories : AllDefects (w.categories.flatMap (Category.issues w)) :=
    .flatMap fun category _ => allDefects_category w category
  have metrics : AllDefects (w.metrics.flatMap fun m =>
      m.issues ++ m.entry?.elim [] (Entry.issues limits w)) :=
    .flatMap fun m _ => (allDefects_metric m).append (allDefects_metricEntry m)
  have formulas : AllDefects (w.formulas.flatMap fun f => f.entry.issues limits w) :=
    .flatMap fun f _ => allDefects_entry f.entry
  have others := ((ids.append categories).append metrics).append formulas
  rw [blocking_issues, List.filter_append, List.filter_eq_nil_iff.mpr, List.nil_append, cycleIssues]
  · split <;> rfl
  · intro issue member
    simpa using (others issue member).kind

theorem find?_circular (limits : Limits) (w : Workbook) :
    (blocking (w.issues limits)).find? (·.kind = .circularDependency) =
      (cycleIssues (w.cycle limits)).head? := by
  rw [← filter_circular, List.head?_filter]

/-- The ids of a problem that is a cycle are all ids on cycles. -/
theorem ids_of_circular {issue : Issue} (member : issue ∈ blocking (w.issues limits))
    (kind : issue.kind = .circularDependency) :
    w.cycle limits ≠ [] ∧ issue.ids = w.cycle limits := by
  have reported : issue ∈ cycleIssues (w.cycle limits) := by
    rw [← filter_circular]
    exact List.mem_filter.mpr ⟨member, by simpa using kind⟩
  unfold cycleIssues at reported
  split at reported
  · cases reported
  · next nonempty =>
    rw [List.mem_singleton.mp reported]
    exact ⟨by simpa using nonempty, rfl⟩

/-- Ids on cycles are reported. -/
theorem exists_circular (cyclic : w.cycle limits ≠ []) :
    ∃ issue ∈ blocking (w.issues limits), issue.kind = .circularDependency := by
  have reported : (blocking (w.issues limits)).filter (·.kind = .circularDependency) ≠ [] := by
    rw [filter_circular, ne_eq, cycleIssues_eq_nil_iff]
    exact cyclic
  obtain ⟨issue, member⟩ := List.exists_mem_of_ne_nil _ reported
  obtain ⟨listed, kind⟩ := List.mem_filter.mp member
  exact ⟨issue, listed, by simpa using kind⟩

/-! ## §4 Room -/

section Room

variable {places : Nat}

theorem step_inside (stack : List Frame) (mode : Mode) (token : Token) :
    step (limits.inside places) stack mode token = step limits stack mode token := rfl

theorem parseFrom_inside (length : Nat) (stack : List Frame) (mode : Mode) (tokens : List Token) :
    parseFrom (limits.inside places) length stack mode tokens =
      parseFrom limits length stack mode tokens := by
  induction tokens generalizing stack mode with
  | nil => rfl
  | cons token rest ih =>
    rw [parseFrom, parseFrom, step_inside]
    split
    · exact ih _ _
    · rfl

theorem read_inside (text : String) :
    Formula.read (limits.inside places) text = Formula.read limits text := by
  have parsed (length : Nat) (tokens : List Token) :
      parse (limits.inside places) length tokens = parse limits length tokens := by
    rw [parse_eq_parseFrom, parse_eq_parseFrom, parseFrom_inside]
    rfl
  simp only [Formula.read, parsed]
  rfl

theorem check_inside (entry : Entry) :
    entry.check (limits.inside places) w = entry.check limits w := by
  simp only [Entry.check, checkExpression, read_inside]

theorem cycle_inside : w.cycle (limits.inside places) = w.cycle limits := by
  simp only [Workbook.cycle, Workbook.trees, check_inside]

/-- Places on the stack make no difference to the problems of a workbook. -/
theorem issues_inside : w.issues (limits.inside places) = w.issues limits := by
  have entries : Entry.issues (limits.inside places) w = Entry.issues limits w :=
    funext fun entry => by rw [Entry.issues, Entry.issues, check_inside]
  simp only [Workbook.issues, cycle_inside, entries]

end Room

end BusinessCase
