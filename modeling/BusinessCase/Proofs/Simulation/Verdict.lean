/-
BusinessCase.Proofs.Simulation.Verdict — what the compilation of a workbook
comes to.

A cycle of references comes before all other problems, and these come before a
plan. The cycle is looked for among the formulas alone, the order of the plan
is made with the metrics as well; where there is a plan the two agree, so that
no formula is missing from its order.

  §1 Orders  — `Plan.Schedules`.
  §2 Verdict — `compile_verdict`.
  §3 Limits  — a workbook that high limits leave undecided.
-/
import BusinessCase.Proofs.Simulation.Compile
import BusinessCase.Proofs.Validation.Cycles

namespace BusinessCase

open Formula

variable {limits : Limits} {horizon : Horizon Float} {w : Workbook}

/-! ## §1 Orders -/

/-- The plan evaluates every formula of the workbook once, behind the formulas that it refers to. -/
structure Plan.Schedules (limits : Limits) (w : Workbook) (plan : Plan Float) : Prop where
  /-- The formulas of the plan are those of the workbook. -/
  formulas : ∀ id e, plan.formulas.find? id = some e ↔
    ∃ entry ∈ w.formulaEntries, entry.id = id ∧ Spells limits entry.expression e
  /-- No id is listed twice. -/
  once : plan.order.Nodup
  /-- The ids of formulas are listed, and no others. -/
  all : ∀ id, id ∈ plan.order ↔ ∃ entry ∈ w.formulaEntries, entry.id = id
  /-- A formula stands behind every formula that it refers to. -/
  behind : ∀ before id after, plan.order = before ++ id :: after →
    ∀ e, plan.formulas.find? id = some e → ∀ name ∈ e.names, name ∈ plan.order → name ∈ before

section Orderly

variable {plan : Plan Float} {leaves : List String}

theorem Plan.Orderly.keys_nodup (h : plan.Orderly leaves) :
    (DependencyMap.ofFormulas plan.formulas leaves).keys.Nodup :=
  DependencyMap.keys_ofFormulas_nodup h.distinct

theorem Plan.Orderly.order_nodup (h : plan.Orderly leaves) : plan.order.Nodup := by
  rw [h.order]
  exact (DependencyMap.order_nodup h.keys_nodup).filter _

/-- Nothing lies on a cycle, so no formula is dropped from the order. -/
theorem Plan.Orderly.mem_order (h : plan.Orderly leaves) {id : String} :
    id ∈ plan.order ↔ (plan.formulas.find? id).isSome := by
  rw [h.order, List.mem_filter, and_iff_right_iff_imp]
  intro isFormula
  obtain ⟨e, own⟩ := Option.isSome_iff_exists.mp isFormula
  exact DependencyMap.mem_order_of_acyclic h.keys_nodup h.acyclic
    (DependencyMap.mem_ids_ofFormulas own)

theorem Plan.Orderly.mem_before (h : plan.Orderly leaves) {before after : List String}
    {id name : String} {e : Expr Float} (split : plan.order = before ++ id :: after)
    (own : plan.formulas.find? id = some e) (refers : name ∈ e.names)
    (isFormula : name ∈ plan.order) : name ∈ before := by
  have ready := DependencyMap.ready_order h.keys_nodup
  -- The order of the plan leaves out the ids without a formula; put them back around `id`.
  rw [h.order] at split
  obtain ⟨front, back, whole, rfl, rest⟩ := List.filter_eq_append_iff.mp split
  obtain ⟨leaves', later, rfl, noFormula, -, -⟩ := List.filter_eq_cons_iff.mp rest
  have around : front ++ (leaves' ++ id :: later) = (front ++ leaves') ++ id :: later := by simp
  rw [whole, around] at ready
  have taken := ready.free name (h.refers_iff.mpr ⟨e, own, refers⟩)
  rw [List.append_nil, List.mem_reverse, List.mem_append] at taken
  have listed := h.mem_order.mp isFormula
  exact List.mem_filter.mpr ⟨taken.resolve_right fun leaf => noFormula name leaf listed, listed⟩

end Orderly

/-- **The plan of a sound workbook evaluates its formulas in order.** -/
theorem plan_schedules (horizon : Horizon Float) (sound : w.Sound limits) :
    (w.plan limits horizon).Schedules limits w where
  formulas _ _ := plan_find?_eq_some_iff sound
  once := (orderly_plan horizon sound).order_nodup
  all id := by
    rw [(orderly_plan horizon sound).mem_order, Option.isSome_iff_exists]
    simp only [plan_find?_eq_some_iff sound]
    constructor
    · rintro ⟨_, entry, member, same, -⟩
      exact ⟨entry, member, same⟩
    · rintro ⟨entry, member, same⟩
      obtain ⟨e, spells, -⟩ := sound.formulas entry member
      exact ⟨e, entry, member, same, spells⟩
  behind _ _ _ split _ own _ refers isFormula :=
    (orderly_plan horizon sound).mem_before split own refers isFormula

/-! ## §2 Verdict -/

theorem compile_of_fault {fault : ValidationFault}
    (stopped : (w.faults limits.inner).head? = some fault) :
    w.compile limits horizon = .error (.stopped fault) := by
  rw [Workbook.compile, Workbook.validate, stopped]

/-- Where nothing stops the validation, the first cycle decides, then the other problems. -/
theorem compile_of_validated (unstopped : w.faults limits.inner = []) :
    w.compile limits horizon =
      if w.cycle limits ≠ [] then .error (.circular (w.cycle limits))
      else if blocking (w.issues limits) ≠ [] then .error (.invalid (blocking (w.issues limits)))
      else .ok (w.plan limits horizon) := by
  have validated : w.validate limits.inner = .ok (w.issues limits) :=
    validate_eq_ok_iff.mpr ⟨unstopped, issues_inside.symm⟩
  by_cases acyclic : w.cycle limits = []
  · by_cases unproblematic : blocking (w.issues limits) = []
    · have sound := blocking_issues_eq_nil_iff.mp unproblematic
      simp only [acyclic, unproblematic, ne_eq, not_true_eq_false, if_false]
      exact compile_eq_ok_iff.mpr ⟨unstopped, sound, rfl⟩
    · rw [Workbook.compile, validated]
      simp [find?_circular, acyclic, cycleIssues, unproblematic]
  · rw [Workbook.compile, validated]
    simp [find?_circular, acyclic, cycleIssues]

theorem cycle_ne_nil_iff :
    w.cycle limits ≠ [] ↔ ∃ id, Relation.TransGen (w.Depends limits) id id := by
  rw [ne_eq, List.eq_nil_iff_forall_not_mem]
  simp only [mem_cycle_iff, not_forall, not_not]

/-- **What a compilation comes to, for all workbooks and limits.** Unless something stops the
validation: where formulas depend on themselves, these are reported, each once and no others,
whatever else is wrong; otherwise all problems that stop a simulation are reported, if there are
any; and otherwise there is a plan that evaluates each formula once and in order. Nothing stops the
validation where metrics name their categories by texts, and a stack on which three places more are
taken has room for the fivefold of the nesting limit. -/
theorem compile_verdict (limits : Limits) (horizon : Horizon Float) (w : Workbook) :
    (w.faults limits.inner = [] →
      ((∃ id, Relation.TransGen (w.Depends limits) id id) →
        ∃ ids, w.compile limits horizon = .error (.circular ids) ∧ ids.Nodup ∧
          ∀ id, id ∈ ids ↔ Relation.TransGen (w.Depends limits) id id) ∧
      ((∀ id, ¬ Relation.TransGen (w.Depends limits) id id) →
        (blocking (w.issues limits) ≠ [] →
          w.compile limits horizon = .error (.invalid (blocking (w.issues limits)))) ∧
        (blocking (w.issues limits) = [] →
          ∃ plan, w.compile limits horizon = .ok plan ∧ plan.Schedules limits w))) ∧
    (∀ fault, (w.faults limits.inner).head? = some fault →
      w.compile limits horizon = .error (.stopped fault)) ∧
    (limits.inner.inner.inner.Safe → (∀ m ∈ w.metrics, m.NamesByText) →
      w.faults limits.inner = []) := by
  refine ⟨fun unstopped => ⟨fun cyclic => ?_, fun acyclic => ⟨fun problems => ?_, fun none => ?_⟩⟩,
    fun fault => compile_of_fault, faults_eq_nil⟩
  · refine ⟨w.cycle limits, ?_, cycle_nodup, fun id => mem_cycle_iff⟩
    rw [compile_of_validated unstopped, if_pos (cycle_ne_nil_iff.mpr cyclic)]
  · have listed : ¬ w.cycle limits ≠ [] := fun cyclic =>
      (cycle_ne_nil_iff.mp cyclic).elim acyclic
    rw [compile_of_validated unstopped, if_neg listed, if_pos problems]
  · have sound := blocking_issues_eq_nil_iff.mp none
    exact ⟨w.plan limits horizon, compile_eq_ok_iff.mpr ⟨unstopped, sound, rfl⟩,
      plan_schedules horizon sound⟩

/-- A formula that needs itself, and another one under its id that has no tree. -/
def knotWorkbook : Workbook :=
  { metrics := [], formulas := [⟨"a", "a", "a"⟩, ⟨"a", "again", ""⟩], categories := [] }

theorem spells_knot : Spells {} "a" (.reference "a") := by
  have scanned : tokens "a" = .ok [⟨.identifier, "a", 0⟩] := by
    have name : lexeme 'a' [] = some ⟨.identifier, ['a'], []⟩ := rfl
    have chars : "a".toList = ['a'] := rfl
    rw [tokens, chars, tokensFrom_cons 0 (by decide) name, tokensFrom]
    rfl
  exact ⟨by decide +kernel, by decide +kernel, _, 0, scanned,
    .product (.signed (.primary (.reference rfl))), .inl rfl, rfl⟩

/-- The formula that has a tree stands, though it is not the last one. -/
theorem stands_knot {id : String} {e : Expr Float} :
    knotWorkbook.Stands {} id e ↔ id = "a" ∧ e = .reference "a" := by
  have without (other : Expr Float) : ¬ Spells {} "" other := fun spells =>
    absurd spells.notBlank (by decide +kernel)
  constructor
  · rintro ⟨before, entry, after, entries, rfl, spells, -⟩
    have member : entry ∈ knotWorkbook.formulaEntries := by
      rw [entries]
      exact List.mem_append_right before List.mem_cons_self
    rcases List.mem_pair.mp member with rfl | rfl
    · exact ⟨rfl, spells.unique spells_knot⟩
    · exact absurd spells (without e)
  · rintro ⟨rfl, rfl⟩
    refine ⟨[], ⟨"a", "expression", "a"⟩, [⟨"a", "expression", ""⟩], rfl, rfl, spells_knot, ?_⟩
    intro later member _
    rw [List.mem_singleton.mp member]
    exact without

/-- The theorem at that workbook: the formula is reported to lie on a cycle, and nothing is said
about the id that is used twice. -/
theorem compile_verdict_knot :
    ∃ ids, knotWorkbook.compile {} ⟨[], [], .ok 0, none, none, []⟩ = .error (.circular ids) ∧
      ids.Nodup ∧ ∀ id, id ∈ ids ↔ id = "a" := by
  have safe : (Limits.inside 3 {}).Safe := safe_inside (by decide)
  obtain ⟨verdict, -, unstopped⟩ :=
    compile_verdict {} ⟨[], [], .ok 0, none, none, []⟩ knotWorkbook
  have depends (a b : String) : knotWorkbook.Depends {} a b ↔ a = "a" ∧ b = "a" := by
    simp [Workbook.Depends, stands_knot, Expr.names]
  have cyclic (id : String) :
      Relation.TransGen (knotWorkbook.Depends {}) id id ↔ id = "a" := by
    constructor
    · intro cycle
      obtain ⟨_, first, -⟩ := Relation.TransGen.head'_iff.mp cycle
      exact ((depends _ _).mp first).1
    · rintro rfl
      exact .single ((depends _ _).mpr ⟨rfl, rfl⟩)
  obtain ⟨circular, -⟩ := verdict (unstopped safe (by simp [knotWorkbook]))
  obtain ⟨ids, compiled, nodup, members⟩ := circular ⟨"a", (cyclic "a").mpr rfl⟩
  exact ⟨ids, compiled, nodup, fun id => (members id).trans (cyclic id)⟩

/-! ## §3 Limits -/

/-- **High limits refuse a workbook that has no problem.** -/
theorem compile_beyond_stack :
    (∀ id, ¬ Relation.TransGen (nestedWorkbook.Depends wideLimits) id id) ∧
      blocking (nestedWorkbook.issues wideLimits) = [] ∧
      nestedWorkbook.compile wideLimits ⟨[], [], .ok 0, none, none, []⟩ =
        .error (.stopped (.reading "f" .stackExhausted)) := by
  have none := blocking_issues_eq_nil_iff.mpr nestedWorkbook_sound
  have listed : nestedWorkbook.cycle wideLimits = [] :=
    (cycle_eq_nil_iff nestedWorkbook_sound.distinct).mpr nestedWorkbook_sound.acyclic
  have stopped : nestedWorkbook.faults wideLimits.inner = [.reading "f" .stackExhausted] :=
    faults_of_readStop (isAllBlank_nestedOne 300)
      (readStop?_nestedOne rfl rfl rfl (Limits.allows_whole.mpr (.inr rfl)) (by decide))
  exact ⟨fun id cycle => cycle_ne_nil_iff.mpr ⟨id, cycle⟩ listed, none,
    compile_of_fault (by rw [stopped]; rfl)⟩

end BusinessCase
