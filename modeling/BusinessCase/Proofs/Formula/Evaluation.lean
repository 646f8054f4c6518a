/-
BusinessCase.Proofs.Formula.Evaluation — what the value of a formula depends on.

An evaluation looks up the names that a tree refers to, and nothing else. It
fails where a look-up fails, where a function does, and at a node that is none.
So what the walk over a tree collects is all that its value depends on.

  §1 Names    — `eval_congr`, the same value under look-ups that agree.
  §2 Room     — what a value says of the outcome, and an outcome of the value.
  §3 Failures — what an evaluation can fail with.
  §4 Whole    — `outcome_of_collected`.
  §5 Towers   — sums in each other, which take as much room as one likes.
-/
import BusinessCase.Formula.Stack
import BusinessCase.Proofs.Formula.Walks
import BusinessCase.Proofs.Steps
import BusinessCase.Scalar.Binary64

namespace BusinessCase.Formula.Expr

variable {α : Type} [Scalar α] {look look' : String → Except EvalError α}

/-! ## §1 Names -/

mutual

/-- **A formula has the same value under look-ups that agree on its names.** -/
theorem eval_congr : ∀ {e : Expr α}, (∀ name ∈ e.names, look name = look' name) →
    e.eval look = e.eval look'
  | number _, _ => rfl
  | reference name, agree => agree name (by simp [names])
  | unary op argument, agree => by
    have inner : argument.eval look = argument.eval look' := eval_congr fun name refers =>
      agree name (by simpa [names] using refers)
    rw [eval, eval, inner]
  | binary op left right, agree => by
    have first : left.eval look = left.eval look' := eval_congr fun name refers =>
      agree name (by simp [names, refers])
    have second : right.eval look = right.eval look' := eval_congr fun name refers =>
      agree name (by simp [names, refers])
    rw [eval, eval, first, second]
  | call callee arguments, agree => by
    have inner : evalAll look arguments = evalAll look' arguments := evalAll_congr fun name refers =>
      agree name (by simpa [names] using refers)
    rw [eval, eval, inner]
  | foreign, _ => rfl

theorem evalAll_congr : ∀ {es : List (Expr α)}, (∀ name ∈ namesAll es, look name = look' name) →
    evalAll look es = evalAll look' es
  | [], _ => rfl
  | e :: rest, agree => by
    have first : e.eval look = e.eval look' := eval_congr fun name refers =>
      agree name (by simp [namesAll, refers])
    have others : evalAll look rest = evalAll look' rest := evalAll_congr fun name refers =>
      agree name (by simp [namesAll, refers])
    rw [evalAll, evalAll, first, others]

end

/-! ## §2 Room -/

section Room

variable {e : Expr α} {taken : Nat} {x : α}

/-- Where there is room, the outcome is the value. -/
theorem outcome_of_fits (room : e.fits taken) (look : String → Except EvalError α) :
    e.outcome taken look = e.eval look := by
  rw [outcome, room, if_pos rfl]

/-- An outcome that is a number is the value. -/
theorem eval_of_outcome (value : e.outcome taken look = .ok x) : e.eval look = .ok x := by
  rw [outcome] at value
  split at value
  · exact value
  · cases value

theorem outcome_congr (agree : ∀ name ∈ e.names, look name = look' name) :
    e.outcome taken look = e.outcome taken look' := by
  rw [outcome, outcome, eval_congr agree]

end Room

/-! ## §3 Failures -/

section Failures

variable {allowed : EvalError → Prop}

mutual

/-- **What keeps a formula from its value** is a look-up, a function or a node that is none. -/
theorem eval_failsOnly (looks : ∀ name, FailsOnly allowed (look name))
    (arithmetic : ∀ e, allowed (.arithmetic e)) (foreign : allowed .foreignNode) :
    ∀ e : Expr α, FailsOnly allowed (e.eval look)
  | number x => FailsOnly.ok x
  | reference name => looks name
  | unary op argument => by
    have inner := eval_failsOnly looks arithmetic foreign argument
    rw [eval]
    split
    · exact FailsOnly.ok _
    · next failed => exact FailsOnly.error (inner _ failed)
  | binary op left right => by
    have first := eval_failsOnly looks arithmetic foreign left
    have second := eval_failsOnly looks arithmetic foreign right
    rw [eval]
    split
    · next failed => exact FailsOnly.error (first _ failed)
    · split
      · next failed => exact FailsOnly.error (second _ failed)
      · exact FailsOnly.ok _
  | call callee arguments => by
    have inner := evalAll_failsOnly looks arithmetic foreign arguments
    rw [eval]
    split
    · exact FailsOnly.ok _
    · split
      · next failed => exact FailsOnly.error (inner _ failed)
      · exact FailsOnly.mapError fun e _ => arithmetic e
  | .foreign => FailsOnly.error foreign

theorem evalAll_failsOnly (looks : ∀ name, FailsOnly allowed (look name))
    (arithmetic : ∀ e, allowed (.arithmetic e)) (foreign : allowed .foreignNode) :
    ∀ es : List (Expr α), FailsOnly allowed (evalAll look es)
  | [] => FailsOnly.ok []
  | e :: rest => by
    have first := eval_failsOnly looks arithmetic foreign e
    have others := evalAll_failsOnly looks arithmetic foreign rest
    rw [evalAll]
    split
    · next failed => exact FailsOnly.error (first _ failed)
    · split
      · next failed => exact FailsOnly.error (others _ failed)
      · exact FailsOnly.ok _

end

end Failures

/-! ## §4 Whole -/

/-- **The names that the walk collects are all that a formula depends on.** Under look-ups that agree
on them it comes to the same number, or to the same error with the same name and value in it. -/
theorem outcome_of_collected {e : Expr α} {names : List String}
    (collected : e.references? = some names) (agree : ∀ name ∈ names, look name = look' name)
    (taken : Nat) : e.outcome taken look = e.outcome taken look' := by
  have same : e.names = names := by
    rw [references?_eq] at collected
    split at collected
    · exact Option.some.inj collected
    · cases collected
  exact outcome_congr fun name refers => agree name (same ▸ refers)

/-- The theorem at `max(b) + a`, where `a` stands for a text, for two tables that differ in `c`. -/
theorem outcome_of_collected_text :
    let e : Expr Float := .binary .plus (.call "max" [.reference "b"]) (.reference "a")
    let table (c : Cell Float) (name : String) : Option (Cell Float) :=
      if name = "a" then some (.other (.text "x")) else if name = "c" then some c else none
    e.references? = some ["b", "a"] ∧
      e.outcome 0 (resolve (table .absent)) = e.outcome 0 (resolve (table (.number 1))) ∧
      e.outcome 0 (resolve (table (.number 1))) = .error (.nonNumeric "a" (.text "x")) := by
  intro e table
  have collected : e.references? = some ["b", "a"] := by
    rw [references?_eq]
    rfl
  have agree : ∀ name ∈ ["b", "a"],
      resolve (table .absent) name = resolve (table (.number 1)) name := by
    simp [resolve, table]
  exact ⟨collected, outcome_of_collected collected agree 0, rfl⟩

end BusinessCase.Formula.Expr

namespace BusinessCase

open Formula

/-! ## §5 Towers -/

/-- Ones, added up from left to right; that many are added to the first. -/
def sumOfOnes : Nat → Expr Float
  | 0 => .number 1
  | n + 1 => .binary .plus (sumOfOnes n) (.number 1)

theorem places_sumOfOnes (n : Nat) : (sumOfOnes n).places = n + 1 := by
  induction n with
  | zero => simp [sumOfOnes, Expr.places]
  | succ n ih => simp [sumOfOnes, Expr.places, ih]

end BusinessCase
