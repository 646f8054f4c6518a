/-
BusinessCase.Proofs.Validation.Expression — which formulas pass their check.

`Spells` says that a text is a formula with a tree, `Usable` that the tree
calls and refers to nothing unknown. A check finds no problem exactly where
both hold.

  §1 Texts — `Spells`, the tree that a text has.
  §2 Trees — `Usable`, the names in a tree.
  §3 Check — `checkExpression_snd_eq_none_iff`.
-/
import BusinessCase.Proofs.Dependency.Ids
import BusinessCase.Proofs.Formula.Reading
import BusinessCase.Validation.Expression

namespace BusinessCase

open Formula

variable {limits : Limits} {known : List String} {place : Place} {text : String} {e : Expr Float}

/-! ## §1 Texts -/

/-- The text is a formula with that tree: it is not blank, not too long, and the grammar derives its
tokens within the limits. -/
structure Spells (limits : Limits) (text : String) (e : Expr Float) : Prop where
  notBlank : Text.isAllBlank text = false
  short : exceeds (Text.size text) limits.expressionLength = false
  derived : ∃ ts n, tokens text = .ok ts ∧ Derives .sum ts e n ∧ limits.Admits e n

theorem spells_iff_read :
    Spells limits text e ↔ Text.isAllBlank text = false ∧ Formula.read limits text = .ok e := by
  rw [read_eq_ok_iff]
  constructor
  · intro h
    exact ⟨h.notBlank, h.short, h.derived⟩
  · rintro ⟨notBlank, short, derived⟩
    exact ⟨notBlank, short, derived⟩

/-- A text has one tree at most. -/
theorem Spells.unique {other : Expr Float} (h : Spells limits text e)
    (h' : Spells limits text other) : e = other := by
  have read := (spells_iff_read.mp h).2
  have read' := (spells_iff_read.mp h').2
  exact Except.ok.inj (read.symm.trans read')

theorem Spells.isProper (h : Spells limits text e) : e.isProper := by
  obtain ⟨ts, n, -, derived, -⟩ := h.derived
  exact derived.isProper

/-! ## §2 Trees -/

/-- Every function that the tree calls is built in and takes as many arguments as it gets, and
every name that it refers to is known or a constant. -/
structure Usable (known : List String) (e : Expr Float) : Prop where
  calls : ∀ callee arguments, .call callee arguments ∈ e.preorder →
    ∃ f, Builtin.ofName? callee = some f ∧ f.accepts arguments.length
  references : ∀ name ∈ e.names, name ∈ known ∨ name ∈ constantNames

theorem sortedIds_eq_nil_iff {ids : List String} : sortedIds ids = [] ↔ ids = [] := by
  simp only [List.eq_nil_iff_forall_not_mem, mem_sortedIds]

/-- The calls that are looked at are those among the nodes. -/
theorem mem_calls_iff (proper : e.isProper) {callee : String} {count : Nat} :
    (callee, count) ∈ e.calls ↔
      ∃ arguments, .call callee arguments ∈ e.preorder ∧ arguments.length = count := by
  have calls_eq : e.calls = e.preorder.filterMap Expr.callShape? := by
    rw [Expr.calls, Expr.calls?, Expr.nodes?_eq, if_pos proper]
    rfl
  rw [calls_eq, List.mem_filterMap]
  constructor
  · rintro ⟨node, member, shape⟩
    cases node with
    | call name arguments =>
      cases shape
      exact ⟨arguments, member, rfl⟩
    | _ => cases shape
  · rintro ⟨arguments, member, rfl⟩
    exact ⟨.call callee arguments, member, rfl⟩

theorem unknownFunctions_eq_nil_iff :
    unknownFunctions e = [] ↔ ∀ call ∈ e.calls, (Builtin.ofName? call.1).isSome := by
  simp [unknownFunctions, sortedIds_eq_nil_iff, List.filter_eq_nil_iff, Option.isSome_iff_ne_none]

theorem badArguments?_eq_none_iff {call : String × Nat} :
    badArguments? call = none ↔ ∀ f, Builtin.ofName? call.1 = some f → f.accepts call.2 := by
  cases found : Builtin.ofName? call.1 with
  | none => simp [badArguments?, found]
  | some f => simp [badArguments?, found]

theorem unknownReferences_eq_nil_iff :
    unknownReferences known e = [] ↔
      ∀ name ∈ e.references, name ∈ known ∨ name ∈ constantNames := by
  simp only [unknownReferences, sortedIds_eq_nil_iff, List.filter_eq_nil_iff]
  simp [or_iff_not_imp_left]

/-- The three rules about the names in a tree. -/
theorem nameIssue?_eq_none_iff_rules :
    nameIssue? place known e = none ↔
      unknownFunctions e = [] ∧ (∀ call ∈ e.calls, badArguments? call = none) ∧
        unknownReferences known e = [] := by
  unfold nameIssue?
  cases functions : unknownFunctions e with
  | cons => simp
  | nil =>
    cases bad : e.calls.findSome? badArguments? with
    | some message =>
      obtain ⟨call, member, refused⟩ := List.exists_of_findSome?_eq_some bad
      have violated : ¬ ∀ call ∈ e.calls, badArguments? call = none := fun all => by
        rw [all call member] at refused
        cases refused
      simpa using fun all => (violated fun call member => all call.1 call.2 member).elim
    | none =>
      have taken := List.findSome?_eq_none_iff.mp bad
      simpa using fun _ callee count member => taken (callee, count) member

/-- A tree has no problem exactly if it can be used. -/
theorem nameIssue?_eq_none_iff (proper : e.isProper) :
    nameIssue? place known e = none ↔ Usable known e := by
  rw [nameIssue?_eq_none_iff_rules, unknownFunctions_eq_nil_iff, unknownReferences_eq_nil_iff,
    Expr.references_eq proper]
  constructor
  · rintro ⟨builtin, counts, references⟩
    refine ⟨fun callee arguments member => ?_, references⟩
    have called := (mem_calls_iff proper).mpr ⟨arguments, member, rfl⟩
    obtain ⟨f, found⟩ := Option.isSome_iff_exists.mp (builtin _ called)
    exact ⟨f, found, badArguments?_eq_none_iff.mp (counts _ called) f found⟩
  · intro usable
    refine ⟨fun call called => ?_, fun call called => ?_, usable.references⟩
    · obtain ⟨arguments, member, -⟩ := (mem_calls_iff proper).mp called
      obtain ⟨f, found, -⟩ := usable.calls _ arguments member
      rw [found]
      rfl
    · obtain ⟨arguments, member, length⟩ := (mem_calls_iff proper).mp called
      obtain ⟨f, found, accepts⟩ := usable.calls _ arguments member
      refine badArguments?_eq_none_iff.mpr fun g found' => ?_
      rw [found] at found'
      cases found'
      rwa [← length]

/-! ## §3 Check -/

/-- The tree of a check is the tree of the text. -/
theorem checkExpression_fst_eq_some_iff :
    (checkExpression limits known place (some text)).1 = some e ↔ Spells limits text e := by
  rw [spells_iff_read, checkExpression]
  cases blank : Text.isAllBlank text with
  | true => simp [Option.filter, blank]
  | false => cases read : Formula.read limits text <;> simp [Option.filter, blank, read]

/-- **A check finds no problem exactly if the text is a formula that can be used.** -/
theorem checkExpression_snd_eq_none_iff :
    (checkExpression limits known place (some text)).2 = none ↔
      ∃ e, Spells limits text e ∧ Usable known e := by
  rw [checkExpression]
  cases blank : Text.isAllBlank text with
  | true => simp [Option.filter, blank, spells_iff_read]
  | false =>
    cases read : Formula.read limits text with
    | error error => simp [Option.filter, blank, read, spells_iff_read]
    | ok e =>
      have spells : Spells limits text e := spells_iff_read.mpr ⟨blank, read⟩
      simp only [Option.filter, blank, read, Bool.not_false, if_true,
        nameIssue?_eq_none_iff spells.isProper]
      constructor
      · intro usable
        exact ⟨e, spells, usable⟩
      · rintro ⟨other, spells', usable⟩
        rwa [spells.unique spells']

/-- The problem stops a simulation, and is not that of a cycle. -/
structure Issue.IsDefect (issue : Issue) : Prop where
  severity : issue.severity = .error
  kind : issue.kind ≠ .circularDependency

theorem nameIssue?_made {issue : Issue} (h : nameIssue? place known e = some issue) :
    ∃ kind message, kind ≠ .circularDependency ∧ issue = place.issue kind message := by
  unfold nameIssue? at h
  dsimp only at h
  split at h
  · cases h
    exact ⟨_, _, by simp, rfl⟩
  · split at h
    · cases h
      exact ⟨_, _, by simp, rfl⟩
    · split at h
      · cases h
      · cases h
        exact ⟨_, _, by simp, rfl⟩

/-- What a check finds is told of the place of the formula, and is not that of a cycle. -/
theorem checkExpression_made {expression : Option String} {issue : Issue}
    (h : (checkExpression limits known place expression).2 = some issue) :
    ∃ kind message offset, kind ≠ .circularDependency ∧
      issue = place.issue kind message offset := by
  unfold checkExpression at h
  split at h
  · cases h
    exact ⟨_, _, _, by simp, rfl⟩
  · split at h
    · next error _ =>
      cases h
      cases error <;> exact ⟨_, _, _, by simp, rfl⟩
    · obtain ⟨kind, message, other, made⟩ := nameIssue?_made h
      exact ⟨kind, message, none, other, made⟩

/-- Every problem of a formula is a defect. -/
theorem checkExpression_isDefect {expression : Option String} {issue : Issue}
    (h : (checkExpression limits known place expression).2 = some issue) :
    issue.IsDefect := by
  obtain ⟨kind, message, offset, other, rfl⟩ := checkExpression_made h
  exact ⟨rfl, other⟩

end BusinessCase
