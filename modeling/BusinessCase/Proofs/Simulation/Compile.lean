/-
BusinessCase.Proofs.Simulation.Compile — what the plan of a workbook computes.

Only a sound workbook has a plan, and the plan's order suits its formulas.
What it computes is therefore said by the values of the formulas alone, and
depends neither on the order of the workbook nor on what is given under the id
of a formula.

  §1 Compilation — `compile_eq_ok_iff`, `orderly_plan`.
  §2 Evaluation  — `evaluate_transfer`, two plans with the same formulas.
  §3 Reordering  — `Workbook.Reorders`.
  §4 Whole       — `compile_values`.
-/
import BusinessCase.Proofs.Simulation.Values
import BusinessCase.Proofs.Steps
import BusinessCase.Proofs.Validation.Faults

namespace BusinessCase

open Formula

variable {limits : Limits} {horizon : Horizon Float} {w : Workbook}

/-! ## §1 Compilation -/

/-- Places on the stack make no difference to what a text spells. -/
theorem spells_inner {text : String} {e : Expr Float} :
    Spells limits.inner text e ↔ Spells limits text e :=
  ⟨fun h => ⟨h.notBlank, h.short, h.derived⟩, fun h => ⟨h.notBlank, h.short, h.derived⟩⟩

theorem sound_inner : w.Sound limits.inner ↔ w.Sound limits := by
  have refers : w.Refers limits.inner = w.Refers limits := by
    funext a b
    simp only [Workbook.Refers, spells_inner]
  constructor
  · intro h
    exact { h with
      formulas := by simpa only [spells_inner] using h.formulas
      acyclic := by simpa only [refers] using h.acyclic }
  · intro h
    exact { h with
      formulas := by simpa only [spells_inner] using h.formulas
      acyclic := by simpa only [refers] using h.acyclic }

/-- Formulas that all have a tree are read once more as they were read before. -/
theorem readFormulas_eq
    (spelled : ∀ entry ∈ w.formulaEntries, ∃ e, Spells limits entry.expression e) :
    w.readFormulas limits = .ok (w.trees limits) := by
  rw [Workbook.readFormulas, mapM_eq_ok_filterMap (g := fun entry =>
    (entry.check limits w).1.map (entry.id, ·))]
  · rfl
  · intro entry member
    obtain ⟨e, spells⟩ := spelled entry member
    have checked : (entry.check limits w).1 = some e := checkExpression_fst_eq_some_iff.mpr spells
    refine ⟨(entry.id, e), ?_, by rw [checked]; rfl⟩
    rw [(spells_iff_read.mp spells).2]
    rfl

/-- **A workbook compiles if and only if nothing stops its validation and it is sound.** -/
theorem compile_eq_ok_iff {plan : Plan Float} :
    w.compile limits horizon = .ok plan ↔
      w.faults limits.inner = [] ∧ w.Sound limits ∧ plan = w.plan limits horizon := by
  rw [Workbook.compile, ← sound_inner]
  cases validated : w.validate limits.inner with
  | error fault =>
    have stopped : w.faults limits.inner ≠ [] := fun none => by
      rw [validate_eq_ok_iff.mpr ⟨none, rfl⟩] at validated
      cases validated
    simp [stopped]
  | ok issues =>
    obtain ⟨none, rfl⟩ := validate_eq_ok_iff.mp validated
    cases problems : blocking (w.issues limits.inner) with
    | nil =>
      have sound := blocking_issues_eq_nil_iff.mp problems
      have spelled : ∀ entry ∈ w.formulaEntries, ∃ e, Spells limits entry.expression e :=
        fun entry member => (sound.formulas entry member).imp fun _ h => spells_inner.mp h.1
      simp [problems, none, sound, readFormulas_eq spelled, Workbook.plan, eq_comm]
    | cons first rest =>
      have unsound : ¬ w.Sound limits.inner := fun sound => by
        rw [blocking_issues_eq_nil_iff.mpr sound] at problems
        cases problems
      dsimp only
      rw [problems]
      split <;> simp [unsound]

/-- The formulas of a plan are those of its workbook. -/
theorem plan_find?_eq_some_iff (sound : w.Sound limits) {id : String} {e : Expr Float} :
    (w.plan limits horizon).formulas.find? id = some e ↔
      ∃ entry ∈ w.formulaEntries, entry.id = id ∧ Spells limits entry.expression e :=
  trees_find?_eq_some_iff sound.distinct

/-- **The order of a plan suits its formulas.** -/
theorem orderly_plan (horizon : Horizon Float) (sound : w.Sound limits) :
    (w.plan limits horizon).Orderly (w.metrics.map (·.id)) where
  distinct := (trees_of_distinct limits sound.distinct).1
  proper id e own := by
    obtain ⟨entry, -, -, spells⟩ := (plan_find?_eq_some_iff sound).mp own
    exact spells.isProper
  order := rfl
  acyclic id cycle := by
    have refers : (DependencyMap.ofFormulas (w.plan limits horizon).formulas
        (w.metrics.map (·.id))).Refers = w.Refers limits := refers_trees sound.distinct
    rw [DependencyMap.OnCycle, refers] at cycle
    exact sound.acyclic id cycle

/-! ## §2 Evaluation -/

section Transfer

variable {α : Type} [Scalar α] {plan plan' : Plan α} {leaves leaves' : List String}
  {base base' table : Table (Cell α)}

/-- **Two plans with the same formulas compute the same** on tables that agree outside the formulas:
if one of them ends with a table, so does the other, with the same look-ups. -/
theorem evaluate_transfer (orderly : plan.Orderly leaves) (orderly' : plan'.Orderly leaves')
    (formulas : plan.formulas.find? = plan'.formulas.find?) (taken : plan.taken = plan'.taken)
    (agree : ∀ id, plan.formulas.find? id = none → base.find? id = base'.find? id)
    (ended : plan.evaluate base = .ok table) :
    ∃ table', plan'.evaluate base' = .ok table' ∧ table'.find? = table.find? := by
  have spec := (orderly.evaluate_values base).1 table ended
  obtain ⟨computed', failed'⟩ := orderly'.evaluate_values base'
  have transfer {id : String} {r : Except EvalError α} (value : plan.Value 1 base.find? id r) :
      plan'.Value 1 base'.find? id r := value.transfer formulas taken agree
  cases ended' : plan'.evaluate base' with
  | error error =>
    obtain ⟨id, isFormula, value'⟩ := failed' error ended'
    obtain ⟨e, own⟩ := Option.isSome_iff_exists.mp (formulas ▸ isFormula)
    obtain ⟨x, value, -⟩ := (spec id).1 e own
    have same := (transfer value).unique value'
    cases same
  | ok table' =>
    refine ⟨table', rfl, funext fun id => ?_⟩
    obtain ⟨result, kept⟩ := spec id
    obtain ⟨result', kept'⟩ := computed' table' ended' id
    cases own : plan.formulas.find? id with
    | none => rw [kept own, kept' (formulas ▸ own), agree id own]
    | some e =>
      obtain ⟨x, value, found⟩ := result e own
      obtain ⟨x', value', found'⟩ := result' e (formulas ▸ own)
      have same := (transfer value).unique value'
      cases same
      rw [found, found']

end Transfer

/-! ## §3 Reordering -/

/-- The same metrics and formulas in another order. -/
structure Workbook.Reorders (w w' : Workbook) : Prop where
  metrics : w'.metrics.Perm w.metrics
  formulas : w'.formulas.Perm w.formulas
  categories : w'.categories = w.categories

section Reorders

variable {w' : Workbook}

theorem Workbook.Reorders.ids (h : w.Reorders w') : w'.ids.Perm w.ids :=
  (h.metrics.map _).append (h.formulas.map _)

theorem Workbook.Reorders.mem_formulaEntries (h : w.Reorders w') {entry : Entry} :
    entry ∈ w'.formulaEntries ↔ entry ∈ w.formulaEntries := by
  have entries : w'.formulaEntries.Perm w.formulaEntries :=
    (h.metrics.filterMap _).append (h.formulas.map _)
  exact entries.mem_iff

theorem Workbook.Reorders.refers (h : w.Reorders w') : w'.Refers limits = w.Refers limits := by
  funext a b
  simp only [Workbook.Refers, h.mem_formulaEntries]

/-- **A sound workbook is sound in any order.** -/
theorem Workbook.Reorders.sound (h : w.Reorders w') (sound : w.Sound limits) :
    w'.Sound limits where
  distinct := h.ids.nodup_iff.mpr sound.distinct
  members := by
    intro category listed id member
    obtain ⟨m, isMetric, same⟩ := sound.members category (h.categories ▸ listed) id member
    exact ⟨m, h.metrics.mem_iff.mpr isMetric, same⟩
  values m listed := sound.values m (h.metrics.mem_iff.mp listed)
  estimates m listed := sound.estimates m (h.metrics.mem_iff.mp listed)
  formulas := by
    intro entry member
    obtain ⟨e, spells, usable⟩ := sound.formulas entry (h.mem_formulaEntries.mp member)
    refine ⟨e, spells, usable.calls, fun name refers => ?_⟩
    exact (usable.references name refers).imp_left h.ids.mem_iff.mpr
  acyclic := h.refers ▸ sound.acyclic

/-- Nothing else stops the validation of a reordered workbook. -/
theorem Workbook.Reorders.faults (h : w.Reorders w') (none : w.faults limits = []) :
    w'.faults limits = [] := by
  have category (m : Metric) : m.categoryFault? w' = m.categoryFault? w := by
    have strange : m.strangeCategory? w' = m.strangeCategory? w := by
      rw [Metric.strangeCategory?, Metric.strangeCategory?, h.categories]
    rw [Metric.categoryFault?, Metric.categoryFault?, strange]
  rw [Workbook.faults, List.append_eq_nil_iff] at none ⊢
  simp only [category]
  exact ⟨((h.metrics.flatMap_right _).trans (none.1 ▸ .refl _)).eq_nil,
    ((h.formulas.filterMap _).trans (none.2 ▸ .refl _)).eq_nil⟩

end Reorders

/-! ## §4 Whole -/

/-- **What the plan of a workbook computes.** Its formulas are those of the workbook. Every id
stands for one thing. An evaluation on top of a table ends with each formula id standing for its
value and any other id for what it stood for, unless some formula has no number; then it fails. What
the table holds under the id of a formula makes no difference, and neither does the order of the
workbook. -/
theorem compile_values {plan : Plan Float} (compiled : w.compile limits horizon = .ok plan) :
    (∀ id e, plan.formulas.find? id = some e ↔
      ∃ entry ∈ w.formulaEntries, entry.id = id ∧ Spells limits entry.expression e) ∧
    (∀ callers given id, ∃! r, plan.Value callers given id r) ∧
    (∀ base table, plan.evaluate base = .ok table → ∀ id,
      (∀ e, plan.formulas.find? id = some e →
        ∃ x, plan.Value 1 base.find? id (.ok x) ∧ table.find? id = some (.number x)) ∧
      (plan.formulas.find? id = none → table.find? id = base.find? id)) ∧
    (∀ base, (∃ error, plan.evaluate base = .error error) ↔
      ∃ id error, (plan.formulas.find? id).isSome ∧ plan.Value 1 base.find? id (.error error)) ∧
    (∀ base base', (∀ id, plan.formulas.find? id = none → base.find? id = base'.find? id) →
      ∀ table, plan.evaluate base = .ok table →
        ∃ table', plan.evaluate base' = .ok table' ∧ table'.find? = table.find?) ∧
    (∀ w', w.Reorders w' → ∃ plan', w'.compile limits horizon = .ok plan' ∧
      (∀ callers given id r, plan'.Value callers given id r ↔ plan.Value callers given id r) ∧
      ∀ base table, plan.evaluate base = .ok table →
        ∃ table', plan'.evaluate base = .ok table' ∧ table'.find? = table.find?) := by
  obtain ⟨unstopped, sound, rfl⟩ := compile_eq_ok_iff.mp compiled
  have orderly := orderly_plan horizon sound
  refine ⟨fun id e => plan_find?_eq_some_iff sound, fun callers given id => ?_,
    fun base => (orderly.evaluate_values base).1, fun base => ⟨?_, ?_⟩,
    fun base base' agree table => evaluate_transfer orderly orderly rfl rfl agree,
    fun w' reorders => ?_⟩
  · obtain ⟨r, value⟩ := orderly.exists_value callers given id
    exact ⟨r, value, fun other value' => value'.unique value⟩
  · rintro ⟨error, failed⟩
    obtain ⟨id, isFormula, value⟩ := (orderly.evaluate_values base).2 error failed
    exact ⟨id, error, isFormula, value⟩
  · rintro ⟨id, error, isFormula, value⟩
    cases ended : (w.plan limits horizon).evaluate base with
    | error error => exact ⟨error, rfl⟩
    | ok table =>
      obtain ⟨e, own⟩ := Option.isSome_iff_exists.mp isFormula
      obtain ⟨x, value', -⟩ := ((orderly.evaluate_values base).1 table ended id).1 e own
      cases value'.unique value
  · have sound' := reorders.sound sound
    have same : (w.plan limits horizon).formulas.find? =
        (w'.plan limits horizon).formulas.find? := by
      funext id
      refine Option.ext fun e => ?_
      rw [plan_find?_eq_some_iff sound, plan_find?_eq_some_iff sound']
      simp only [reorders.mem_formulaEntries]
    refine ⟨w'.plan limits horizon,
      compile_eq_ok_iff.mpr ⟨reorders.faults unstopped, sound', rfl⟩,
      fun callers given id r => ?_,
      fun base table =>
        evaluate_transfer orderly (orderly_plan horizon sound') same rfl fun _ _ => rfl⟩
    exact ⟨Plan.Value.transfer same.symm rfl fun _ _ => rfl,
      Plan.Value.transfer same rfl fun _ _ => rfl⟩

/-- A plan of the small workbook, for no years. -/
def smallPlan : Plan Float := smallWorkbook.plan {} ⟨[], [], .ok 0, none, none, []⟩

/-- What a table holds for the small workbook, the second value under the id of the formula. -/
def smallTable : Table (Cell Float) := [("x", .number 3), ("y", .number 99)]

theorem smallPlan_find? {id : String} {e : Expr Float} :
    smallPlan.formulas.find? id = some e ↔
      id = "y" ∧ e = .binary .times (.number 2) (.unary .minus (.reference "x")) := by
  have entries : smallWorkbook.formulaEntries = [⟨"y", "expression", "2*-x"⟩] := rfl
  rw [smallPlan, plan_find?_eq_some_iff smallWorkbook_sound, entries]
  constructor
  · rintro ⟨entry, member, rfl, spells⟩
    cases List.mem_singleton.mp member
    exact ⟨rfl, spells.unique spells_smallFormula⟩
  · rintro ⟨rfl, rfl⟩
    exact ⟨_, List.mem_singleton_self _, rfl, spells_smallFormula⟩

theorem smallPlan_find?_x : smallPlan.formulas.find? "x" = none := by
  cases own : smallPlan.formulas.find? "x" with
  | none => rfl
  | some e => exact absurd (smallPlan_find?.mp own).1 (by decide)

/-- The formula stands for twice the opposite of what is given under `x`. -/
theorem smallPlan_value : smallPlan.Value 1 smallTable.find? "y" (.ok (-6)) := by
  have given : smallPlan.Value 1 smallTable.find? "x" (.ok 3) := .given smallPlan_find?_x
  have sees : ∀ name ∈ (Expr.binary .times (.number (2 : Float))
      (.unary .minus (.reference "x"))).names,
        smallPlan.Value 1 smallTable.find? name ((fun _ => .ok 3) name) := by
    intro name refers
    rw [List.mem_singleton.mp refers]
    exact given
  exact Plan.Value.formula (smallPlan_find?.mpr ⟨rfl, rfl⟩) sees

/-- The theorem at the small workbook: the formula gets its value, and what the table holds under
its id is not seen. -/
theorem compile_values_small :
    smallWorkbook.compile {} ⟨[], [], .ok 0, none, none, []⟩ = .ok smallPlan ∧
      ∃ table, smallPlan.evaluate smallTable = .ok table ∧
        table.find? "x" = some (.number 3) ∧ table.find? "y" = some (.number (-6)) := by
  have safe : (Limits.inside 3 {}).Safe := safe_inside (by decide)
  have compiled : smallWorkbook.compile {} ⟨[], [], .ok 0, none, none, []⟩ = .ok smallPlan :=
    compile_eq_ok_iff.mpr ⟨faults_eq_nil safe smallWorkbook_named, smallWorkbook_sound, rfl⟩
  obtain ⟨-, -, computed, failed, -, -⟩ := compile_values compiled
  refine ⟨compiled, ?_⟩
  cases ended : smallPlan.evaluate smallTable with
  | error error =>
    obtain ⟨id, error', isFormula, value⟩ := (failed smallTable).mp ⟨error, ended⟩
    obtain ⟨e, own⟩ := Option.isSome_iff_exists.mp isFormula
    obtain ⟨rfl, -⟩ := smallPlan_find?.mp own
    cases value.unique smallPlan_value
  | ok table =>
    have spec := computed smallTable table ended
    obtain ⟨x, value, found⟩ := (spec "y").1 _ (smallPlan_find?.mpr ⟨rfl, rfl⟩)
    cases value.unique smallPlan_value
    exact ⟨table, rfl, (spec "x").2 smallPlan_find?_x, found⟩

end BusinessCase
