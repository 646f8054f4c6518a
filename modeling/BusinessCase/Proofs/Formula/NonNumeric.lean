/-
BusinessCase.Proofs.Formula.NonNumeric — which value keeps a formula from its number.

A table holds values of any kind. An evaluation comes to the references of a
formula from left to right, those in the arguments of unknown functions left
out, and it ends at the first that stands for something other than a number or
nothing. If it comes to none, and no function fails on the numbers it is given,
there is a number.

  §1 Values — `Value.isStrange`, and what a name of a table stands for.
  §2 Nodes  — `Expr.firstStrange?`, `Expr.FunctionFails`.
  §3 Steps  — `Explained`, an outcome told from the nodes that it comes to.
  §4 Whole  — `numberOf_exact`, and where there is no room or no message.
-/
import BusinessCase.Error
import BusinessCase.Proofs.Formula.Evaluation
import BusinessCase.Proofs.Formula.Propagation
import BusinessCase.Proofs.Value.Sizes

namespace BusinessCase

open Formula

/-! ## §1 Values -/

/-- Neither a number nor nothing; truth values are no numbers. -/
def Value.isStrange : Value → Bool
  | .null | .int _ | .float _ => false
  | .bool _ | .text _ | .list _ | .object _ => true

/-- A list of one whole number with too many digits cannot be written out either. -/
theorem Value.list_unshown {n : Nat} (large : shownBound ≤ n) :
    (Value.list [.int n]).isShown = false := by
  have unshown : (Value.int n).isShown = false :=
    eq_false_of_ne_true fun shown => Nat.not_lt.mpr large (isShown_int_iff.mp shown)
  rw [isShown, allShown, unshown, Bool.false_and]

namespace Table

variable {values : Table Value}

/-- The table as formulas see it. -/
def cells (values : Table Value) : Table (Cell Float) :=
  values.map fun entry => (entry.1, Cell.ofValue entry.2)

theorem find?_cells (values : Table Value) (name : String) :
    values.cells.find? name = (values.find? name).map Cell.ofValue := by
  induction values with
  | nil => rfl
  | cons entry rest ih =>
    rw [cells, List.map_cons, find?_cons, find?_cons]
    split
    · rfl
    · exact ih

/-- Every whole number of the table has a double, and all else in it can be written out. -/
structure Readable (values : Table Value) : Prop where
  numbers : ∀ name n, values.find? name = some (.int n) → (Value.ofInt? n).isSome
  shown : ∀ name value, values.find? name = some value → value.isShown

/-- A table is readable if all whole numbers in it have doubles, also those in lists and objects. -/
theorem readable_of_fits (fit : ∀ entry ∈ values, entry.2.fits) : values.Readable where
  numbers _ _ found := fit _ (mem_of_find? found)
  shown _ _ found := Value.isShown_of_fits (fit _ (mem_of_find? found))

/-- A name stands for a number unless the table has a strange value under it. -/
theorem resolve_cells (readable : values.Readable) (name : String) :
    match (values.find? name).filter Value.isStrange with
    | none => ∃ x, resolve values.cells.find? name = .ok x
    | some value => resolve values.cells.find? name = .error (.nonNumeric name value) := by
  cases found : values.find? name with
  | none =>
    have missing : resolve values.cells.find? name = .ok ((constant? name).getD Scalar.nan) := by
      rw [resolve, find?_cells, found]
      rfl
    exact ⟨_, missing⟩
  | some value =>
    have read : resolve values.cells.find? name = (Cell.ofValue value).read name := by
      rw [resolve, find?_cells, found]
      rfl
    rw [read]
    cases value with
    | null | float x => exact ⟨_, rfl⟩
    | bool b | text s | list items | object fields => rfl
    | int n =>
      obtain ⟨x, double⟩ := Option.isSome_iff_exists.mp (readable.numbers name n found)
      refine ⟨x, ?_⟩
      rw [Cell.ofValue, double]
      rfl

end Table

/-! ## §2 Nodes -/

namespace Formula.Expr

/-- The nodes that an evaluation comes to: those outside the arguments of unknown functions. -/
abbrev sought (e : Expr Float) : List (Expr Float) := e.besides fun callee => !isBuiltin callee

abbrev soughtAll (es : List (Expr Float)) : List (Expr Float) :=
  besidesAll (fun callee => !isBuiltin callee) es

/-- The name and value of a reference that stands for a strange value. -/
def strange? (values : Table Value) : Expr Float → Option (String × Value)
  | reference name => ((values.find? name).filter Value.isStrange).map (name, ·)
  | _ => none

/-- The first such reference from the left. -/
def firstStrange? (values : Table Value) (e : Expr Float) : Option (String × Value) :=
  e.sought.findSome? (strange? values)

/-- The node calls a built-in function that fails on the numbers its arguments come to. -/
inductive FunctionFails (look : String → Except EvalError Float) (fault : ArithmeticError) :
    Expr Float → Prop where
  | call {callee : String} {arguments : List (Expr Float)} {f : Builtin} {xs : List Float}
    (called : Builtin.ofName? callee = some f) (given : evalAll look arguments = .ok xs)
    (fails : f.apply xs = .error fault) : FunctionFails look fault (.call callee arguments)

end Formula.Expr

/-! ## §3 Steps -/

section Steps

variable {β γ : Type} {values : Table Value} {look : String → Except EvalError Float}
  {nodes more : List (Expr Float)}

/-- The outcome is what the nodes make of it: a value if none of them refers to a strange one, or
else the first that does, or a function among them that fails. -/
def Explained (values : Table Value) (look : String → Except EvalError Float)
    (nodes : List (Expr Float)) : Except EvalError β → Prop
  | .ok _ => nodes.findSome? (Expr.strange? values) = none
  | .error (.nonNumeric name value) =>
    nodes.findSome? (Expr.strange? values) = some (name, value)
  | .error (.arithmetic fault) => ∃ node ∈ nodes, node.FunctionFails look fault
  | .error .foreignNode | .error .stackExhausted => False

namespace Explained

/-- What follows nodes that refer to nothing strange is explained by what is behind them. -/
theorem after {r : Except EvalError β} (before : nodes.findSome? (Expr.strange? values) = none)
    (later : Explained values look more r) : Explained values look (nodes ++ more) r := by
  have same : (nodes ++ more).findSome? (Expr.strange? values) =
      more.findSome? (Expr.strange? values) := by
    rw [List.findSome?_append, before, Option.none_or]
  match r with
  | .ok _ | .error (.nonNumeric _ _) => exact same.trans later
  | .error (.arithmetic _) =>
    obtain ⟨node, member, fails⟩ := later
    exact ⟨node, List.mem_append_right nodes member, fails⟩
  | .error .foreignNode | .error .stackExhausted => cases later

theorem cons {node : Expr Float} {r : Except EvalError β} (plain : node.strange? values = none)
    (later : Explained values look nodes r) : Explained values look (node :: nodes) r := by
  have before : [node].findSome? (Expr.strange? values) = none := by
    rw [List.findSome?_singleton, plain]
  exact after before later

/-- An error is explained by what comes before it. -/
theorem stop {e : EvalError} (first : Explained values look nodes (.error e : Except EvalError β)) :
    Explained values look (nodes ++ more) (.error e : Except EvalError γ) := by
  match e with
  | .nonNumeric name value =>
    have culprit : nodes.findSome? (Expr.strange? values) = some (name, value) := first
    show (nodes ++ more).findSome? _ = _
    rw [List.findSome?_append, culprit, Option.some_or]
  | .arithmetic _ =>
    obtain ⟨node, member, fails⟩ := first
    exact ⟨node, List.mem_append_left more member, fails⟩
  | .foreignNode | .stackExhausted => cases first

end Explained

end Steps

namespace Formula.Expr

variable {values : Table Value}

mutual

/-- **What an evaluation comes to is explained by the nodes it comes to**, in their order. -/
theorem explained_eval (readable : values.Readable) : (e : Expr Float) → e.isProper →
    Explained values (resolve values.cells.find?) e.sought (e.eval (resolve values.cells.find?))
  | number _, _ => rfl
  | reference name, _ => by
    have meaning := Table.resolve_cells readable name
    rw [eval]
    cases strange : (values.find? name).filter Value.isStrange with
    | none =>
      rw [strange] at meaning
      obtain ⟨x, given⟩ := meaning
      rw [given]
      show [reference name].findSome? (strange? values) = none
      rw [List.findSome?_singleton, strange?, strange, Option.map_none]
    | some value =>
      rw [strange] at meaning
      rw [meaning]
      show [reference name].findSome? (strange? values) = some (name, value)
      rw [List.findSome?_singleton, strange?, strange, Option.map_some]
  | unary op argument, proper => by
    have inner := explained_eval readable argument proper
    rw [sought, besides, eval]
    refine .cons rfl ?_
    cases outcome : argument.eval (resolve values.cells.find?) <;> rw [outcome] at inner <;>
      exact inner
  | binary op left right, proper => by
    obtain ⟨left_proper, right_proper⟩ := Bool.and_eq_true_iff.mp proper
    have first := explained_eval readable left left_proper
    have second := explained_eval readable right right_proper
    rw [sought, besides, eval]
    refine .cons rfl ?_
    cases outcome : left.eval (resolve values.cells.find?) with
    | error e =>
      rw [outcome] at first
      exact first.stop
    | ok x =>
      rw [outcome] at first
      refine .after first ?_
      cases outcome : right.eval (resolve values.cells.find?) <;> rw [outcome] at second <;>
        exact second
  | call callee arguments, proper => by
    rw [sought, besides, eval]
    cases called : Builtin.ofName? callee with
    | none =>
      rw [if_pos (by rw [isBuiltin, called]; rfl)]
      exact .cons rfl rfl
    | some f =>
      rw [if_neg (by simp [isBuiltin, called])]
      have inner := explained_evalAll readable arguments proper
      cases given : evalAll (resolve values.cells.find?) arguments with
      | error e =>
        rw [given] at inner
        rw [← List.append_nil (besidesAll _ arguments)]
        exact .cons rfl inner.stop
      | ok xs =>
        rw [given] at inner
        dsimp only
        cases result : f.apply xs with
        | ok y => exact .cons rfl inner
        | error fault => exact ⟨_, List.mem_cons_self, .call called given result⟩
  | foreign, proper => by cases proper

theorem explained_evalAll (readable : values.Readable) : (es : List (Expr Float)) → allProper es →
    Explained values (resolve values.cells.find?) (soughtAll es)
      (evalAll (resolve values.cells.find?) es)
  | [], _ => rfl
  | e :: rest, proper => by
    obtain ⟨first_proper, rest_proper⟩ := Bool.and_eq_true_iff.mp proper
    have first := explained_eval readable e first_proper
    have others := explained_evalAll readable rest rest_proper
    rw [soughtAll, besidesAll, evalAll]
    cases outcome : e.eval (resolve values.cells.find?) with
    | error error =>
      rw [outcome] at first
      exact first.stop
    | ok x =>
      rw [outcome] at first
      refine .after first ?_
      cases outcome : evalAll (resolve values.cells.find?) rest with
      | error error =>
        rw [outcome] at others
        exact others
      | ok xs =>
        rw [outcome] at others
        exact others

end

end Formula.Expr

/-! ## §4 Whole -/

section Whole

variable {e : Expr Float} {values : Table Value}

/-- The first strange value stands in the table under a name that the evaluation comes to. -/
theorem strange_of_first {name : String} {value : Value}
    (first : e.firstStrange? values = some (name, value)) :
    .reference name ∈ e.sought ∧ values.find? name = some value ∧ value.isStrange := by
  obtain ⟨node, member, found⟩ := List.exists_of_findSome?_eq_some first
  cases node with
  | reference other =>
    obtain ⟨held, strange, same⟩ := Option.map_eq_some_iff.mp found
    cases same
    exact ⟨member, Option.filter_eq_some_iff.mp strange⟩
  | _ => cases found

/-- Without a strange value under one of those names there is no first. -/
theorem firstStrange?_eq_none (plain : ∀ name value, .reference name ∈ e.sought →
    values.find? name = some value → value.isStrange = false) : e.firstStrange? values = none := by
  cases first : e.firstStrange? values with
  | none => rfl
  | some culprit =>
    obtain ⟨member, held, strange⟩ := strange_of_first first
    rw [plain _ _ member held] at strange
    cases strange

/-- The ways in which an evaluation can end. -/
theorem numberOf_cases (proper : e.isProper) (readable : values.Readable) (room : e.fits 0)
    (written : ∀ entry ∈ values, e.fits entry.2.places) :
    (∃ x, numberOf values.cells e = .ok x ∧ e.firstStrange? values = none) ∨
    (∃ name value, numberOf values.cells e = .error (.engine (.nonNumeric name value)) ∧
      e.firstStrange? values = some (name, value)) ∨
    ∃ fault, numberOf values.cells e = .error (.arithmetic fault) ∧
      ∃ node ∈ e.sought, node.FunctionFails (resolve values.cells.find?) fault := by
  have explained := Expr.explained_eval readable e proper
  have outcome_eq := Expr.outcome_of_fits room (resolve values.cells.find?)
  match outcome : e.eval (resolve values.cells.find?) with
  | .ok x =>
    rw [outcome] at explained outcome_eq
    have ended : numberOf values.cells e = .ok x := by
      rw [numberOf, Expr.value, outcome_eq]
      rfl
    exact .inl ⟨x, ended, explained⟩
  | .error (.nonNumeric name value) =>
    rw [outcome] at explained outcome_eq
    have first : e.firstStrange? values = some (name, value) := explained
    have held := (strange_of_first first).2.1
    have ended : numberOf values.cells e = .error (.engine (.nonNumeric name value)) := by
      rw [numberOf, Expr.value, outcome_eq]
      simp only [written _ (Table.mem_of_find? held), if_true]
      exact congrArg Except.error (if_pos (readable.shown name value held))
    exact .inr (.inl ⟨name, value, ended, first⟩)
  | .error (.arithmetic fault) =>
    rw [outcome] at explained outcome_eq
    have ended : numberOf values.cells e = .error (.arithmetic fault) := by
      rw [numberOf, Expr.value, outcome_eq]
      rfl
    exact .inr (.inr ⟨fault, ended, explained⟩)
  | .error .foreignNode | .error .stackExhausted =>
    rw [outcome] at explained
    cases explained

/-- **The first strange value keeps a formula from its number.** Over a readable table, and where the
stack has room for the evaluation and for writing out any value of the table on top of it, an
evaluation that no built-in function ends by failing on its numbers ends with the name and the value
of the first strange reference, where there is one outside the arguments of unknown functions, and
gives a number where there is none. -/
theorem numberOf_exact (proper : e.isProper) (readable : values.Readable) (room : e.fits 0)
    (written : ∀ entry ∈ values, e.fits entry.2.places) :
    (∀ fault, numberOf values.cells e = .error (.arithmetic fault) →
      ∃ node ∈ e.sought, node.FunctionFails (resolve values.cells.find?) fault) ∧
    ((∀ fault, numberOf values.cells e ≠ .error (.arithmetic fault)) →
      (∀ name value, numberOf values.cells e = .error (.engine (.nonNumeric name value)) ↔
        e.firstStrange? values = some (name, value)) ∧
      ((∀ name value, .reference name ∈ e.sought → values.find? name = some value →
        value.isStrange = false) → ∃ x, numberOf values.cells e = .ok x)) := by
  rcases numberOf_cases proper readable room written with ⟨x, ended, first⟩ |
    ⟨name, value, ended, first⟩ | ⟨fault, ended, fails⟩
  · rw [ended, first]
    exact ⟨by simp, fun _ => ⟨by simp, fun _ => ⟨x, rfl⟩⟩⟩
  · rw [ended, first]
    refine ⟨by simp, fun _ => ⟨by simp, fun plain => ?_⟩⟩
    rw [firstStrange?_eq_none plain] at first
    cases first
  · rw [ended]
    refine ⟨?_, fun steady => absurd rfl (steady fault)⟩
    rintro _ ⟨⟩
    exact fails

/-- The theorem at `f(a) + (max(b, c) - (pi + d))`, where `f` is unknown, nothing is under `c`, and
`a`, `pi` and `d` are no numbers. -/
theorem numberOf_exact_constant :
    let values : Table Value := [("a", .text "x"), ("b", .int 2), ("c", .null), ("pi", .bool true),
      ("d", .list [.int 3])]
    let e : Expr Float := .binary .plus (.call "f" [.reference "a"])
      (.binary .minus (.call "max" [.reference "b", .reference "c"])
        (.binary .plus (.reference "pi") (.reference "d")))
    values.Readable ∧ e.fits 0 ∧ e.firstStrange? values = some ("pi", .bool true) ∧
      numberOf values.cells e = .error (.engine (.nonNumeric "pi" (.bool true))) := by
  intro values e
  have readable : values.Readable := Table.readable_of_fits (by decide +kernel)
  have room : e.fits 0 := rfl
  have written : ∀ entry ∈ values, e.fits entry.2.places := by decide +kernel
  have ended : numberOf values.cells e = .error (.engine (.nonNumeric "pi" (.bool true))) := rfl
  have steady : ∀ fault, numberOf values.cells e ≠ .error (.arithmetic fault) := by simp [ended]
  exact ⟨readable, room,
    (((numberOf_exact rfl readable room written).2 steady).1 "pi" (.bool true)).mp ended, ended⟩

/-- A sum of ones refers to nothing and calls no function. -/
theorem mem_sought_sumOfOnes {n : Nat} {node : Expr Float} (member : node ∈ (sumOfOnes n).sought) :
    (∃ x, node = .number x) ∨ ∃ left right, node = .binary .plus left right := by
  induction n with
  | zero => exact .inl ⟨1, List.mem_singleton.mp member⟩
  | succ n ih =>
    rcases List.mem_cons.mp member with rfl | inside
    · exact .inr ⟨_, _, rfl⟩
    · rcases List.mem_append.mp inside with left | right
      · exact ih left
      · exact .inl ⟨1, List.mem_singleton.mp right⟩

/-- A value that cannot be written out does not get into an error. -/
theorem Failure.ofEval_unshown {name : String} {value : Value} (unshown : value.isShown = false) :
    ofEval (.nonNumeric name value) = .notShown :=
  if_neg (ne_true_of_eq_false unshown)

theorem numberOf_unshown {n : Nat} (large : Value.shownBound ≤ n) :
    numberOf (Table.cells [("a", .list [.int n])]) (.reference "a") = .error .notShown :=
  congrArg Except.error (Failure.ofEval_unshown (Value.list_unshown large))

/-- Nor does a value that there is no room for writing out. -/
theorem numberOf_unwritten {items : List Value}
    (deep : (Expr.reference "a" : Expr Float).fits (Value.list items).places = false) :
    numberOf (Table.cells [("a", .list items)]) (.reference "a") = .error .stackExhausted := by
  have outcome : (Expr.reference "a").outcome 0
      (resolve (Table.cells [("a", .list items)]).find?) =
        .error (.nonNumeric "a" (.list items)) := rfl
  rw [numberOf, Expr.value, outcome]
  simp only [deep, Bool.false_eq_true, if_false]
  rfl

/-- Lists inside each other, the innermost of them empty. -/
def Value.nestedList : (k : Nat) → Value
  | 0 => .list []
  | k + 1 => .list [nestedList k]

theorem Value.places_nestedList (k : Nat) : (nestedList k).places = k + 1 := by
  induction k with
  | zero => rfl
  | succ k ih => simp [nestedList, places, placesOfItems, ih]

theorem Value.isShown_nestedList (k : Nat) : (nestedList k).isShown = true := by
  induction k with
  | zero => rfl
  | succ k ih => simp [nestedList, isShown, allShown, ih]

/-- **A number can also fail to come about** for want of room, here for a thousand sums in each
other, where there is neither a strange value nor a function. And a strange value does not get into
an error if it cannot be written out, be it that it holds too long a number or that it is a list in
a thousand others. -/
theorem numberOf_beyond_room :
    ((∀ node ∈ (sumOfOnes 1000).sought, node.strange? [] = none ∧
        ∀ look fault, ¬ node.FunctionFails look fault) ∧
      numberOf (Table.cells []) (sumOfOnes 1000) = .error .stackExhausted) ∧
    (Expr.firstStrange? [("a", .list [.int Value.shownBound])] (.reference "a") =
        some ("a", .list [.int Value.shownBound]) ∧
      numberOf (Table.cells [("a", .list [.int Value.shownBound])]) (.reference "a") =
        .error .notShown) ∧
    ((Value.nestedList 1000).isShown ∧
      Expr.firstStrange? [("a", Value.nestedList 1000)] (.reference "a") =
        some ("a", Value.nestedList 1000) ∧
      numberOf (Table.cells [("a", Value.nestedList 1000)]) (.reference "a") =
        .error .stackExhausted) := by
  refine ⟨⟨fun node member => ?_, ?_⟩, ⟨rfl, ?_⟩, Value.isShown_nestedList 1000, rfl, ?_⟩
  · rcases mem_sought_sumOfOnes member with ⟨x, rfl⟩ | ⟨left, right, rfl⟩
    · exact ⟨rfl, fun _ _ fails => by cases fails⟩
    · exact ⟨rfl, fun _ _ fails => by cases fails⟩
  · have full : (sumOfOnes 1000).fits 0 = false := by
      simp [Expr.fits, places_sumOfOnes, evaluationPlaces]
    rw [numberOf, Expr.value, Expr.outcome, full]
    rfl
  · exact numberOf_unshown (Nat.le_refl Value.shownBound)
  · have places : (Value.list [Value.nestedList 999]).places = 1001 := Value.places_nestedList 1000
    have deep : (Expr.reference "a" : Expr Float).fits (Value.list [Value.nestedList 999]).places =
        false := by
      rw [places]
      rfl
    exact numberOf_unwritten deep

end Whole

end BusinessCase
