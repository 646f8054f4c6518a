/-
BusinessCase.Proofs.Simulation.Values — the values of formulas, seen from above.

`Plan.Value` says what an id stands for without any order of evaluation: a
formula stands for its tree with every name replaced by what that stands for,
and any other id for what is given under it. The results that a plan computes
from below, one formula after the other, are these values.

  §1 Orders  — `Plan.Orderly`, the plans that compilation makes.
  §2 Values  — `Plan.Value`; every id has one and only one.
  §3 Results — `Plan.Holds`, what a table keeps along an order.
  §4 Tables  — `evaluate_values`, results on top of a table.
-/
import BusinessCase.Proofs.Dependency.Order
import BusinessCase.Proofs.Formula.Evaluation
import BusinessCase.Simulation.Plan
import Mathlib.Tactic.Choose

namespace BusinessCase

open Formula

variable {α : Type} {plan : Plan α} {leaves : List String}

/-! ## §1 Orders -/

/-- The order of a plan is that of its formulas, which depend on each other in no circle. -/
structure Plan.Orderly (plan : Plan α) (leaves : List String) : Prop where
  distinct : plan.formulas.names.Nodup
  proper : ∀ id e, plan.formulas.find? id = some e → e.isProper
  order : plan.order = (DependencyMap.ofFormulas plan.formulas leaves).order.filter
    fun id => (plan.formulas.find? id).isSome
  acyclic : ∀ id, ¬ (DependencyMap.ofFormulas plan.formulas leaves).OnCycle id

theorem Plan.Orderly.refers_iff (h : plan.Orderly leaves) {a b : String} :
    (DependencyMap.ofFormulas plan.formulas leaves).Refers a b ↔
      ∃ e, plan.formulas.find? a = some e ∧ b ∈ e.names := by
  rw [DependencyMap.refers_ofFormulas]
  refine exists_congr fun e => and_congr_right fun own => ?_
  rw [Expr.references_eq (h.proper a e own)]

variable [Scalar α] {callers : Nat} {given : String → Option (Cell α)} {id : String}

/-! ## §2 Values -/

/-- What an id stands for, a number or an error, where callers take so many places of the stack. -/
inductive Plan.Value (plan : Plan α) (callers : Nat) (given : String → Option (Cell α)) :
    String → Except EvalError α → Prop where
  /-- A formula stands for the outcome of its tree, each name for what it stands for itself. -/
  | formula {id : String} {e : Expr α} {look : String → Except EvalError α}
      (own : plan.formulas.find? id = some e)
      (sees : ∀ name ∈ e.names, plan.Value callers given name (look name)) :
      plan.Value callers given id (e.outcome (plan.taken + callers) look)
  /-- Any other id stands for what is given under it, else for the constant of that name. -/
  | given {id : String} (none : plan.formulas.find? id = none) :
      plan.Value callers given id (resolve given id)

/-- **An id stands for one thing only.** -/
theorem Plan.Value.unique {r r' : Except EvalError α} (h : plan.Value callers given id r)
    (h' : plan.Value callers given id r') : r = r' := by
  induction h generalizing r' with
  | formula own sees ih =>
    cases h' with
    | formula own' sees' =>
      rw [own] at own'
      cases own'
      exact Expr.outcome_congr fun name refers => ih name refers (sees' name refers)
    | given none =>
      rw [own] at none
      cases none
  | given none =>
    cases h' with
    | formula own' =>
      rw [none] at own'
      cases own'
    | given => rfl

/-- What is given under the id of a formula does not count. -/
theorem Plan.Value.transfer {plan' : Plan α} {given' : String → Option (Cell α)}
    {r : Except EvalError α} (formulas : plan.formulas.find? = plan'.formulas.find?)
    (taken : plan.taken = plan'.taken)
    (agree : ∀ id, plan.formulas.find? id = none → given id = given' id)
    (h : plan.Value callers given id r) : plan'.Value callers given' id r := by
  induction h with
  | formula own sees ih =>
    rw [taken]
    exact .formula (formulas ▸ own) ih
  | @given id none =>
    have same : resolve given id = resolve given' id := by rw [resolve, resolve, agree id none]
    rw [same]
    exact .given (formulas ▸ none)

/-- **Every id stands for something.** -/
theorem Plan.Orderly.exists_value (h : plan.Orderly leaves) (callers : Nat)
    (given : String → Option (Cell α)) (id : String) :
    ∃ r, plan.Value callers given id r := by
  induction DependencyMap.acc_of_acyclic h.acyclic id with
  | intro id _ ih =>
    cases own : plan.formulas.find? id with
    | none => exact ⟨_, .given own⟩
    | some e =>
      have below : ∀ name, ∃ r, name ∈ e.names → plan.Value callers given name r := by
        intro name
        by_cases refers : name ∈ e.names
        · obtain ⟨r, value⟩ := ih name (h.refers_iff.mpr ⟨e, own, refers⟩)
          exact ⟨r, fun _ => value⟩
        · exact ⟨.error .stackExhausted, fun refers' => absurd refers' refers⟩
      choose look sees using below
      exact ⟨_, .formula own sees⟩

/-! ## §3 Results -/

variable {β : Type} {cell : β → Cell α} {entry : α → β} {done order : List String}
  {base values table : Table β}

/-- What a table holds after the formulas of `done` were evaluated on top of `base`. What it holds
under the id of any other formula is of no account. -/
structure Plan.Holds (plan : Plan α) (callers : Nat) (cell : β → Cell α) (entry : α → β)
    (base values : Table β) (done : List String) : Prop where
  results : ∀ id ∈ done, ∀ e, plan.formulas.find? id = some e → ∃ x,
    plan.Value callers (fun name => (base.find? name).map cell) id (.ok x) ∧
      values.find? id = some (entry x)
  others : ∀ id, plan.formulas.find? id = none → values.find? id = base.find? id

/-- What a formula sees under a name is what the name stands for, if that has been evaluated or is
no formula. -/
theorem Plan.Holds.value (h : plan.Holds callers cell entry base values done)
    (reads : ∀ x, cell (entry x) = .number x)
    (settled : ∀ e, plan.formulas.find? id = some e → id ∈ done) :
    plan.Value callers (fun name => (base.find? name).map cell) id
      (resolve (fun name => (values.find? name).map cell) id) := by
  cases own : plan.formulas.find? id with
  | none =>
    have same : resolve (fun name => (values.find? name).map cell) id =
        resolve (fun name => (base.find? name).map cell) id := by
      rw [resolve, resolve, h.others id own]
    rw [same]
    exact .given own
  | some e =>
    obtain ⟨x, value, found⟩ := h.results id (settled e own) e own
    have number : resolve (fun name => (values.find? name).map cell) id = .ok x := by
      rw [resolve, found, Option.map_some, reads]
      rfl
    rw [number]
    exact value

/-- One result more is put into the table. -/
theorem Plan.Holds.set (h : plan.Holds callers cell entry base values done) {e : Expr α} {x : α}
    (own : plan.formulas.find? id = some e)
    (value : plan.Value callers (fun name => (base.find? name).map cell) id (.ok x)) :
    plan.Holds callers cell entry base (values.set id (entry x)) (id :: done) := by
  constructor
  · intro other isDone e' own'
    by_cases same : other = id
    · subst same
      exact ⟨x, value, Table.find?_set_self _ _ _⟩
    · rw [Table.find?_set_of_ne _ _ same]
      exact h.results other ((List.mem_cons.mp isDone).resolve_left same) e' own'
  · intro other none
    have distinct : other ≠ id := fun same => by
      rw [same, own] at none
      cases none
    rw [Table.find?_set_of_ne _ _ distinct]
    exact h.others other none

/-- An id without a formula counts as evaluated. -/
theorem Plan.Holds.skip (h : plan.Holds callers cell entry base values done)
    (none : plan.formulas.find? id = none) :
    plan.Holds callers cell entry base values (id :: done) := by
  refine ⟨fun other isDone e own => ?_, h.others⟩
  rcases List.mem_cons.mp isDone with rfl | before
  · rw [none] at own
    cases own
  · exact h.results other before e own

/-- **Results computed in an order are values**: each formula finds what it refers to, and the first
that has no number ends the computation. -/
theorem Plan.Holds.evaluateFrom (orderly : plan.Orderly leaves)
    (reads : ∀ x, cell (entry x) = .number x)
    (ready : (DependencyMap.ofFormulas plan.formulas leaves).Ready done order)
    (h : plan.Holds callers cell entry base values done) :
    (∀ table, plan.evaluateFrom callers cell entry values order = .ok table →
      plan.Holds callers cell entry base table (order.reverse ++ done)) ∧
    (∀ error, plan.evaluateFrom callers cell entry values order = .error error →
      ∃ id, (plan.formulas.find? id).isSome ∧
        plan.Value callers (fun name => (base.find? name).map cell) id (.error error)) := by
  induction order generalizing done values with
  | nil =>
    refine ⟨fun table computed => ?_, fun error failed => by cases failed⟩
    cases computed
    exact h
  | cons id rest ih =>
    obtain ⟨free, ready⟩ := ready
    rw [List.reverse_cons, List.append_assoc, List.singleton_append, Plan.evaluateFrom]
    cases own : plan.formulas.find? id with
    | none => exact ih ready (h.skip own)
    | some e =>
      have value : plan.Value callers (fun name => (base.find? name).map cell) id
          (e.outcome (plan.taken + callers) (resolve fun name => (values.find? name).map cell)) :=
        .formula own fun name refers => h.value reads fun e' isFormula =>
          free name (orderly.refers_iff.mpr ⟨e, own, refers⟩)
      dsimp only
      cases result : e.outcome (plan.taken + callers)
          (resolve fun name => (values.find? name).map cell) with
      | error error =>
        refine ⟨fun table computed => (by cases computed), fun error' failed => ?_⟩
        cases failed
        exact ⟨id, by rw [own]; rfl, result ▸ value⟩
      | ok x => exact ih ready (h.set own (result ▸ value))

/-- Ids without a formula can be left out of an order. -/
theorem evaluateFrom_filter (plan : Plan α) (values : Table β) (order : List String) :
    plan.evaluateFrom callers cell entry values
        (order.filter fun id => (plan.formulas.find? id).isSome) =
      plan.evaluateFrom callers cell entry values order := by
  induction order generalizing values with
  | nil => rfl
  | cons id rest ih =>
    rw [List.filter_cons]
    cases own : plan.formulas.find? id with
    | none =>
      rw [Plan.evaluateFrom, own]
      exact ih values
    | some e =>
      simp only [Option.isSome_some, if_true]
      rw [Plan.evaluateFrom, Plan.evaluateFrom, own]
      dsimp only
      cases e.outcome (plan.taken + callers) (resolve fun name => (values.find? name).map cell) with
      | error => rfl
      | ok x => exact ih (values.set id (entry x))

/-! ## §4 Tables -/

/-- **The formulas of a plan on top of a table**: every formula id stands for its value, every other
id for what it stood for. That fails only where some formula has no number. -/
theorem Plan.Orderly.evaluateFrom_values (orderly : plan.Orderly leaves) (callers : Nat)
    (cell : β → Cell α) (entry : α → β) (reads : ∀ x, cell (entry x) = .number x)
    (base : Table β) :
    (∀ table, plan.evaluateFrom callers cell entry base plan.order = .ok table → ∀ id,
      (∀ e, plan.formulas.find? id = some e → ∃ x,
        plan.Value callers (fun name => (base.find? name).map cell) id (.ok x) ∧
          table.find? id = some (entry x)) ∧
      (plan.formulas.find? id = none → table.find? id = base.find? id)) ∧
    (∀ error, plan.evaluateFrom callers cell entry base plan.order = .error error →
      ∃ id, (plan.formulas.find? id).isSome ∧
        plan.Value callers (fun name => (base.find? name).map cell) id (.error error)) := by
  have keys : (DependencyMap.ofFormulas plan.formulas leaves).keys.Nodup :=
    DependencyMap.keys_ofFormulas_nodup orderly.distinct
  have start : plan.Holds callers cell entry base base [] :=
    ⟨fun id none => (by cases none), fun id none => rfl⟩
  rw [orderly.order, evaluateFrom_filter]
  obtain ⟨computed, failed⟩ := start.evaluateFrom orderly reads (DependencyMap.ready_order keys)
  refine ⟨fun table done id => ⟨fun e own => ?_, (computed table done).others id⟩, failed⟩
  have listed := DependencyMap.mem_order_of_acyclic keys orderly.acyclic
    (DependencyMap.mem_ids_ofFormulas own)
  exact (computed table done).results id
    (List.mem_append_left _ (List.mem_reverse.mpr listed)) e own

/-- The same for a table of cells. -/
theorem Plan.Orderly.evaluate_values (orderly : plan.Orderly leaves) (base : Table (Cell α)) :
    (∀ table, plan.evaluate base = .ok table → ∀ id,
      (∀ e, plan.formulas.find? id = some e →
        ∃ x, plan.Value 1 base.find? id (.ok x) ∧ table.find? id = some (.number x)) ∧
      (plan.formulas.find? id = none → table.find? id = base.find? id)) ∧
    (∀ error, plan.evaluate base = .error error →
      ∃ id, (plan.formulas.find? id).isSome ∧ plan.Value 1 base.find? id (.error error)) := by
  have looks : (fun name => (base.find? name).map fun c => c) = base.find? :=
    funext fun _ => Option.map_id'
  have spec := orderly.evaluateFrom_values 1 (fun c => c) Cell.number (fun _ => rfl) base
  rw [looks] at spec
  exact spec

end BusinessCase
