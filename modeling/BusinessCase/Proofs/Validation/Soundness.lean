/-
BusinessCase.Proofs.Validation.Soundness — a checked formula needs no fall-back.

An evaluation makes do with what it does not know: an unknown function, a
missing argument or a missing name is no number. The strict evaluation here
fails in these cases. It looks functions and their counts of arguments up in
two tables, as a check and an evaluation each have one of their own. On a
formula that passed its check it never fails where the other goes on, whatever
the table holds under the known ids.

  §1 Tables    — `Builtin.functions`, `Builtin.ranges`.
  §2 Strict    — `StrictError`, `Expr.strictEval`, `Expr.strictOutcome`.
  §3 Parts     — the parts of a usable tree are usable.
  §4 Agreement — `strictEval_eq`, `checkExpression_sound`.
-/
import BusinessCase.Proofs.Steps
import BusinessCase.Proofs.Validation.Expression
import BusinessCase.Scalar.Binary64

namespace BusinessCase

open Formula

/-! ## §1 Tables -/

namespace Formula.Builtin

/-- The functions under their names in small letters. -/
def functions : List (String × Builtin) :=
  [("min", least), ("max", greatest), ("sum", sum), ("avg", average), ("average", average),
    ("ifnull", ifNull)]

/-- How many arguments the functions take, at least and, where there is a bound, at most. -/
def ranges : List (String × Nat × Option Nat) :=
  [("min", 1, none), ("max", 1, none), ("sum", 0, none), ("avg", 1, none), ("average", 1, none),
    ("ifnull", 2, some 2)]

/-- A count is in a range. -/
def within (range : Nat × Option Nat) (count : Nat) : Bool :=
  range.1 ≤ count && range.2.all (count ≤ ·)

theorem lookup_cons_eq {β : Type} (name key : String) (value : β) (rest : List (String × β)) :
    ((key, value) :: rest).lookup name = if name = key then some value else rest.lookup name := by
  rw [List.lookup_cons]
  cases same : name == key with
  | true => simp [eq_of_beq same]
  | false => simp [ne_of_beq_false same]

theorem lookup_functions (name : String) :
    functions.lookup (Text.lower name) = ofName? name := by
  simp only [functions, lookup_cons_eq, List.lookup_nil, ofName?]
  grind

theorem lookup_ranges (name : String) :
    ranges.lookup (Text.lower name) = (ofName? name).map arity := by
  simp only [ranges, lookup_cons_eq, List.lookup_nil, ofName?]
  grind [arity]

end Formula.Builtin

/-! ## §2 Strict -/

/-- Why a strict evaluation has no value. -/
inductive StrictError where
  | unknownFunction (callee : String)
  | wrongCount (callee : String) (count : Nat)
  /-- The name is neither in the table nor that of a constant. -/
  | unknownReference (name : String)
  /-- What keeps any evaluation from a value. -/
  | evaluation (error : EvalError)

section

variable {α : Type} [Scalar α] (find : String → Option (Cell α))

/-- What a name stands for, if the table has it or it is that of a constant. -/
def strictLook (name : String) : Except StrictError α :=
  match find name with
  | some cell => (cell.read name).mapError .evaluation
  | none =>
    match constant? name with
    | some x => .ok x
    | none => .error (.unknownReference name)

namespace Formula.Expr

mutual

/-- The value of a formula where nothing is unknown in it, and no call has too few arguments or too
many. -/
def strictEval : Expr α → Except StrictError α
  | number x => .ok x
  | reference name => strictLook find name
  | unary op argument =>
    match strictEval argument with
    | .error e => .error e
    | .ok x => .ok (op.applySign x)
  | binary op left right =>
    match strictEval left with
    | .error e => .error e
    | .ok x =>
      match strictEval right with
      | .error e => .error e
      | .ok y => .ok (op.apply x y)
  | call callee arguments =>
    let folded := Text.lower callee
    match Builtin.functions.lookup folded, Builtin.ranges.lookup folded with
    | some f, some range =>
      if Builtin.within range arguments.length then
        match strictEvalAll arguments with
        | .error e => .error e
        | .ok xs => (f.apply xs).mapError fun error => .evaluation (.arithmetic error)
      else .error (.wrongCount callee arguments.length)
    | _, _ => .error (.unknownFunction callee)
  | foreign => .error (.evaluation .foreignNode)

def strictEvalAll : List (Expr α) → Except StrictError (List α)
  | [] => .ok []
  | e :: rest =>
    match strictEval e with
    | .error error => .error error
    | .ok x =>
      match strictEvalAll rest with
      | .error error => .error error
      | .ok xs => .ok (x :: xs)

end

/-- The outcome of a strict evaluation with so many places of the stack taken. -/
def strictOutcome (taken : Nat) (e : Expr α) : Except StrictError α :=
  if e.fits taken then e.strictEval find else .error (.evaluation .stackExhausted)

end Formula.Expr

end

/-! ## §3 Parts -/

variable {known : List String} {find : String → Option (Cell Float)}

/-- A tree is usable if its nodes and names are some of those of a usable tree. -/
theorem Usable.of_subset {e part : Expr Float} (h : Usable known e)
    (nodes : part.preorder ⊆ e.preorder) (names : part.names ⊆ e.names) : Usable known part where
  calls callee arguments member := h.calls callee arguments (nodes member)
  references name member := h.references name (names member)

theorem Usable.argument {op : Operator} {e : Expr Float} (h : Usable known (.unary op e)) :
    Usable known e :=
  h.of_subset (by simp [Expr.preorder]) (by simp [Expr.names])

theorem Usable.left {op : Operator} {l r : Expr Float} (h : Usable known (.binary op l r)) :
    Usable known l :=
  h.of_subset (by simp [Expr.preorder]) (by simp [Expr.names])

theorem Usable.right {op : Operator} {l r : Expr Float} (h : Usable known (.binary op l r)) :
    Usable known r :=
  h.of_subset (by simp [Expr.preorder]) (by simp [Expr.names])

theorem Usable.arguments {callee : String} {es : List (Expr Float)}
    (h : Usable known (.call callee es)) : ∀ e ∈ es, Usable known e := by
  intro e member
  refine h.of_subset ?_ ?_
  · intro node inside
    exact List.mem_cons_of_mem _ (Expr.mem_preorderAll.mpr ⟨e, member, inside⟩)
  · intro name inside
    exact Expr.mem_namesAll.mpr ⟨e, member, inside⟩

/-! ## §4 Agreement -/

theorem exists_constant {name : String} (h : name ∈ constantNames) :
    ∃ x : Float, constant? name = some x := by
  simp only [constantNames, List.mem_cons, List.not_mem_nil, or_false] at h
  rcases h with rfl | rfl
  · exact ⟨_, rfl⟩
  · exact ⟨_, rfl⟩

/-- A name that is known stands for the same in both evaluations. -/
theorem strictLook_eq {name : String} (given : (find name).isSome ∨ name ∈ constantNames) :
    strictLook find name = (resolve find name).mapError .evaluation := by
  unfold strictLook resolve
  cases found : find name with
  | some cell => rfl
  | none =>
    have isConstant : name ∈ constantNames := by simpa [found] using given
    obtain ⟨x, named⟩ := exists_constant isConstant
    rw [named]
    rfl

mutual

/-- **A usable tree has the same value strictly**, or the same error. -/
theorem strictEval_eq (given : ∀ id ∈ known, (find id).isSome) : (e : Expr Float) →
    Usable known e → e.strictEval find = (e.eval (resolve find)).mapError .evaluation
  | .number x, _ => by
    rw [Expr.strictEval, Expr.eval]
    rfl
  | .reference name, usable => by
    have known_or_constant := usable.references name (by simp [Expr.names])
    rw [Expr.strictEval, Expr.eval]
    exact strictLook_eq (known_or_constant.imp_left (given name))
  | .unary op argument, usable => by
    rw [Expr.strictEval, Expr.eval, strictEval_eq given argument usable.argument]
    cases argument.eval (resolve find) <;> rfl
  | .binary op left right, usable => by
    rw [Expr.strictEval, Expr.eval, strictEval_eq given left usable.left,
      strictEval_eq given right usable.right]
    cases left.eval (resolve find) with
    | error e => rfl
    | ok x => cases right.eval (resolve find) <;> rfl
  | .call callee arguments, usable => by
    obtain ⟨f, named, accepts⟩ := usable.calls callee arguments (by simp [Expr.preorder])
    have inRange : Builtin.within f.arity arguments.length = true := accepts
    rw [Expr.strictEval, Expr.eval, Builtin.lookup_functions, Builtin.lookup_ranges, named]
    simp only [Option.map_some, inRange, if_true]
    rw [strictEvalAll_eq given arguments usable.arguments]
    cases Expr.evalAll (resolve find) arguments with
    | error e => rfl
    | ok xs =>
      simp only [Except.mapError]
      cases f.apply xs <;> rfl
  | .foreign, _ => by
    rw [Expr.strictEval, Expr.eval]
    rfl

theorem strictEvalAll_eq (given : ∀ id ∈ known, (find id).isSome) : (es : List (Expr Float)) →
    (∀ e ∈ es, Usable known e) →
      Expr.strictEvalAll find es = (Expr.evalAll (resolve find) es).mapError .evaluation
  | [], _ => by
    rw [Expr.strictEvalAll, Expr.evalAll]
    rfl
  | e :: rest, usable => by
    obtain ⟨first, others⟩ := List.forall_mem_cons.mp usable
    rw [Expr.strictEvalAll, Expr.evalAll, strictEval_eq given e first,
      strictEvalAll_eq given rest others]
    cases e.eval (resolve find) with
    | error e => rfl
    | ok x => cases Expr.evalAll (resolve find) rest <;> rfl

end

-- Where a tree is not usable, they differ: without a second argument one fails, the other goes on.
example : (Expr.call "ifnull" [.number (1 : Float)]).strictEval (fun _ => none) =
      .error (.wrongCount "ifnull" 1) ∧
    (Expr.call "ifnull" [.number (1 : Float)]).eval (resolve fun _ => none) = .ok 1 :=
  ⟨rfl, rfl⟩

/-- **A formula that passes its check is safe to evaluate.** Whatever a table has under the known
ids, and however much of the stack is taken, a strict evaluation of the tree comes to what the other
comes to. It fails on no unknown function, no wrong count of arguments and no unknown name. -/
theorem checkExpression_sound {limits : Limits} {place : Place} {expression : Option String}
    (passed : (checkExpression limits known place expression).2 = none)
    (given : ∀ id ∈ known, (find id).isSome) :
    ∃ e, (checkExpression limits known place expression).1 = some e ∧ ∀ taken,
      e.strictOutcome find taken = (e.outcome taken (resolve find)).mapError .evaluation ∧
      ∀ error, e.strictOutcome find taken = .error error → ∃ cause, error = .evaluation cause := by
  cases expression with
  | none => simp [checkExpression] at passed
  | some text =>
    obtain ⟨e, spells, usable⟩ := checkExpression_snd_eq_none_iff.mp passed
    refine ⟨e, checkExpression_fst_eq_some_iff.mpr spells, fun taken => ?_⟩
    have same : e.strictOutcome find taken =
        (e.outcome taken (resolve find)).mapError .evaluation := by
      unfold Expr.strictOutcome Expr.outcome
      rw [strictEval_eq given e usable]
      split <;> rfl
    refine ⟨same, fun error failed => ?_⟩
    rw [same] at failed
    obtain ⟨cause, -, rfl⟩ := mapError_eq_error failed
    exact ⟨cause, rfl⟩

/-- The theorem at `MIN(a,pi)` where `a` is known and stands for two. -/
theorem checkExpression_sound_min :
    let find : String → Option (Cell Float) := fun name =>
      if name = "a" then some (.number 2) else none
    (checkExpression {} ["a"] {} (some "MIN(a,pi)")).2 = none ∧
      ∃ e, (checkExpression {} ["a"] {} (some "MIN(a,pi)")).1 = some e ∧
        e.strictOutcome find 0 = .ok 2 := by
  intro find
  let e : Expr Float := .call "MIN" [.reference "a", .reference "pi"]
  have scanned : tokens "MIN(a,pi)" = .ok [⟨.identifier, "MIN", 0⟩, ⟨.leftParen, "(", 3⟩,
      ⟨.identifier, "a", 4⟩, ⟨.comma, ",", 5⟩, ⟨.identifier, "pi", 6⟩, ⟨.rightParen, ")", 8⟩] := by
    simp [tokens, tokensFrom, lexeme, singleKind?, isOperatorSign, startsNumeral, isIdentifierStart,
      isIdentifierPart, Except.map]
  have first : Derives .sum [⟨.identifier, "a", 4⟩] (.reference "a") 0 :=
    .product (.signed (.primary (.reference rfl)))
  have second : Derives .sum [⟨.identifier, "pi", 6⟩] (.reference "pi") 0 :=
    .product (.signed (.primary (.reference rfl)))
  have inside : DerivesAll [⟨.identifier, "a", 4⟩, ⟨.comma, ",", 5⟩, ⟨.identifier, "pi", 6⟩]
      [.reference "a", .reference "pi"] 0 := .more (.one first) rfl second
  have call : Derives .primary [⟨.identifier, "MIN", 0⟩, ⟨.leftParen, "(", 3⟩,
      ⟨.identifier, "a", 4⟩, ⟨.comma, ",", 5⟩, ⟨.identifier, "pi", 6⟩, ⟨.rightParen, ")", 8⟩] e 1 :=
    .call rfl rfl inside rfl
  have spells : Spells {} "MIN(a,pi)" e :=
    ⟨by decide, rfl, _, 1, scanned, .product (.signed (.primary call)), .inr rfl, rfl⟩
  have usable : Usable ["a"] e := by
    refine ⟨fun callee arguments member => ?_,
      by simp [e, Expr.names, Expr.namesAll, constantNames]⟩
    obtain ⟨rfl, rfl⟩ : callee = "MIN" ∧ arguments = [.reference "a", .reference "pi"] := by
      simpa [e, Expr.preorder, Expr.preorderAll] using member
    exact ⟨.least, by decide, rfl⟩
  have passed : (checkExpression {} ["a"] {} (some "MIN(a,pi)")).2 = none :=
    checkExpression_snd_eq_none_iff.mpr ⟨e, spells, usable⟩
  have given : ∀ id ∈ ["a"], (find id).isSome := by simp [find]
  obtain ⟨found, tree, sound⟩ := checkExpression_sound passed given
  have same : found = e := (checkExpression_fst_eq_some_iff.mp tree).unique spells
  subst same
  refine ⟨passed, _, tree, (sound 0).1.trans ?_⟩
  rfl

end BusinessCase
