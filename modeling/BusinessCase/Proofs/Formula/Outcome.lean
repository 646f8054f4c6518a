/-
BusinessCase.Proofs.Formula.Outcome — what evaluating a formula comes to.

Under names that stand for doubles or for nothing, every formula has a worth,
and evaluating it gives that number. Only the functions that add can keep it
from doing so: numbers that run over, or opposite infinities, have no sum. The
numbers that an evaluation adds are listed here in the order in which it comes
to them; the first list that has no sum decides. No operator fails, and no
other function.

  §1 Functions — `Builtin.worth`, and what a function adds.
  §2 Trees     — `Expr.worth`, `Expr.sums`.
  §3 Outcomes  — `eval_eq`, `outcome_exact`.
-/
import BusinessCase.Formula.Stack
import BusinessCase.Proofs.Formula.Walks
import BusinessCase.Proofs.Scalar.Range
import BusinessCase.Scalar.Binary64

namespace BusinessCase.Formula

open ExactSum (Moderate Opposed RunsOver)

/-! ## §1 Functions -/

/-- The names of a table that has a double or nothing under each of them. -/
def lookUp (find : String → Option Float) (name : String) : Except EvalError Float :=
  ((find name).elim .absent .number : Cell Float).read name

theorem lookUp_eq (find : String → Option Float) (name : String) :
    lookUp find name = .ok ((find name).getD Scalar.nan) := by
  unfold lookUp
  cases find name <;> rfl

theorem isNaN_nan : (Scalar.nan : Float).isNaN = true := rfl

/-- A quotient by zero is no number. -/
theorem isNaN_divide (x : Float) {y : Float} (zero : y == 0) :
    (Operator.divide.apply x y).isNaN = true := by
  have isZero : Scalar.eq y (Scalar.nat 0) = true := zero
  unfold Operator.apply
  dsimp only
  rw [if_pos isZero]
  split <;> exact isNaN_nan

/-- Why a list of numbers has no sum. -/
def fault? (xs : List Float) : Option ArithmeticError :=
  match Scalar.exactSum xs with
  | .ok _ => none
  | .error fault => some fault

namespace Builtin

/-- The numbers that a function adds, those that are no numbers left out. -/
def addends (f : Builtin) (args : List Float) : List Float :=
  match f with
  | sum | average => args.filter fun x => !Scalar.isNaN x
  | least | greatest | ifNull => []

/-- The value of a function, where it has one. -/
def worth (f : Builtin) (args : List Float) : Float :=
  match f.apply args with
  | .ok x => x
  | .error _ => Scalar.nan

/-- **Only what a function adds can keep it from its value.** -/
theorem apply_eq (f : Builtin) (args : List Float) :
    f.apply args = match fault? (f.addends args) with
      | none => .ok (f.worth args)
      | some fault => .error fault := by
  have nothing : fault? [] = none := rfl
  cases f with
  | least | greatest =>
    simp only [addends, nothing, worth, apply]
    split <;> rfl
  | ifNull =>
    simp only [addends, nothing, worth, apply]
    split <;> rfl
  | sum =>
    cases total : Scalar.exactSum (args.filter fun x => !Scalar.isNaN x) with
    | ok s =>
      have value : sum.apply args = .ok s := total
      simp only [addends, fault?, total, worth, value]
    | error fault =>
      have none : sum.apply args = .error fault := total
      simp only [addends, fault?, total, none]
  | average =>
    cases known : args.filter fun x => !Scalar.isNaN x with
    | nil =>
      have value : average.apply args = .ok Scalar.nan := by simp only [apply, known]
      simp only [addends, known, nothing, worth, value]
    | cons x rest =>
      cases total : Scalar.exactSum (x :: rest) with
      | ok s =>
        have value : average.apply args = .ok (s / Scalar.nat (x :: rest).length) := by
          simp only [apply, known, total]
        simp only [addends, known, fault?, total, worth, value]
      | error fault =>
        have none : average.apply args = .error fault := by simp only [apply, known, total]
        simp only [addends, known, fault?, total, none]

end Builtin

/-! ## §2 Trees -/

namespace Expr

variable (find : String → Option Float)

mutual

/-- The number that a formula is worth. -/
def worth : Expr Float → Float
  | number x => x
  | reference name => (find name).getD Scalar.nan
  | unary op argument => op.applySign argument.worth
  | binary op left right => op.apply left.worth right.worth
  | call callee arguments =>
    match Builtin.ofName? callee with
    | none => Scalar.nan
    | some f => f.worth (worthAll arguments)
  | foreign => Scalar.nan

def worthAll : List (Expr Float) → List Float
  | [] => []
  | e :: rest => e.worth :: worthAll rest

end

mutual

/-- What an evaluation adds, list by list. -/
def sums : Expr Float → List (List Float)
  | number _ | reference _ | foreign => []
  | unary _ argument => argument.sums
  | binary _ left right => left.sums ++ right.sums
  | call callee arguments =>
    match Builtin.ofName? callee with
    | none => []
    | some f => sumsAll arguments ++ [f.addends (worthAll find arguments)]

def sumsAll : List (Expr Float) → List (List Float)
  | [] => []
  | e :: rest => e.sums ++ sumsAll rest

end

end Expr

/-! ## §3 Outcomes -/

/-- What an evaluation comes to that adds these lists: the first that has no sum decides. -/
def decided {β : Type} (added : List (List Float)) (value : β) : Except EvalError β :=
  match added.findSome? fault? with
  | none => .ok value
  | some fault => .error (.arithmetic fault)

namespace Expr

variable {find : String → Option Float}

mutual

/-- **Evaluating a formula gives its worth unless something it adds has no sum.** -/
theorem eval_eq : (e : Expr Float) → e.isProper →
    e.eval (lookUp find) = decided (e.sums find) (e.worth find)
  | number _, _ => rfl
  | reference name, _ => by
    rw [eval, lookUp_eq]
    rfl
  | unary op argument, proper => by
    rw [eval, eval_eq argument proper, sums, worth, decided, decided]
    cases (argument.sums find).findSome? fault? <;> rfl
  | binary op left right, proper => by
    obtain ⟨first, second⟩ := Bool.and_eq_true_iff.mp proper
    rw [eval, eval_eq left first, eval_eq right second, sums, worth, decided, decided, decided,
      List.findSome?_append]
    cases (left.sums find).findSome? fault? <;> cases (right.sums find).findSome? fault? <;> rfl
  | call callee arguments, proper => by
    rw [eval, sums, worth]
    cases Builtin.ofName? callee with
    | none => rfl
    | some f =>
      dsimp only
      rw [evalAll_eq arguments proper, decided, decided, List.findSome?_append]
      cases (sumsAll find arguments).findSome? fault? with
      | some fault => rfl
      | none =>
        simp only [f.apply_eq, Option.none_or, List.findSome?_cons, List.findSome?_nil]
        cases fault? (f.addends (worthAll find arguments)) <;> rfl
  | foreign, proper => by cases proper

theorem evalAll_eq : (es : List (Expr Float)) → allProper es →
    evalAll (lookUp find) es = decided (sumsAll find es) (worthAll find es)
  | [], _ => rfl
  | e :: rest, proper => by
    obtain ⟨first, others⟩ := Bool.and_eq_true_iff.mp proper
    rw [evalAll, eval_eq e first, evalAll_eq rest others, sumsAll, worthAll, decided, decided,
      decided, List.findSome?_append]
    cases (e.sums find).findSome? fault? <;> cases (sumsAll find rest).findSome? fault? <;> rfl

end

mutual

/-- What an evaluation adds are numbers. -/
theorem isNaN_of_mem_sums : (e : Expr Float) → ∀ xs ∈ e.sums find, ∀ x ∈ xs, x.isNaN = false
  | number _ | reference _ | foreign => by simp [sums]
  | unary _ argument => isNaN_of_mem_sums argument
  | binary _ left right => by
    rw [sums]
    exact List.forall_mem_append.mpr ⟨isNaN_of_mem_sums left, isNaN_of_mem_sums right⟩
  | call callee arguments => by
    rw [sums]
    cases Builtin.ofName? callee with
    | none => simp
    | some f =>
      refine List.forall_mem_append.mpr ⟨isNaN_of_mem_sumsAll arguments, ?_⟩
      intro xs member x within
      obtain rfl := List.mem_singleton.mp member
      cases f with
      | sum | average =>
        have known : Scalar.isNaN x = false := by simpa using (List.mem_filter.mp within).2
        exact known
      | least | greatest | ifNull => cases within

theorem isNaN_of_mem_sumsAll :
    (es : List (Expr Float)) → ∀ xs ∈ sumsAll find es, ∀ x ∈ xs, x.isNaN = false
  | [] => by simp [sumsAll]
  | e :: rest => by
    rw [sumsAll]
    exact List.forall_mem_append.mpr ⟨isNaN_of_mem_sums e, isNaN_of_mem_sumsAll rest⟩

end

end Expr

/-- Why numbers have no sum, if they have none. -/
theorem fault?_exact {xs : List Float} (numbers : ∀ x ∈ xs, x.isNaN = false) :
    (fault? xs = none ↔ ¬ RunsOver xs ∧ ¬ Opposed xs) ∧
      ∀ fault, fault? xs = some fault →
        (fault = .overflow ∧ RunsOver xs) ∨ (fault = .oppositeInfinities ∧ Opposed xs) := by
  obtain ⟨runs, opposed, value⟩ := ExactSum.sum_exact numbers
  have same : ExactSum.sum xs = Scalar.exactSum xs := rfl
  rw [same] at runs opposed value
  rw [← value]
  unfold fault?
  cases total : Scalar.exactSum xs with
  | ok s => simp
  | error fault =>
    refine ⟨by simp, ?_⟩
    intro other same
    obtain rfl := Option.some.inj same
    by_cases room : RunsOver xs
    · have known := runs.mpr room
      rw [total] at known
      cases known
      exact .inl ⟨rfl, room⟩
    · by_cases both : Opposed xs
      · have known := opposed.mpr ⟨room, both⟩
        rw [total] at known
        cases known
        exact .inr ⟨rfl, both⟩
      · obtain ⟨s, known⟩ := value.mpr ⟨room, both⟩
        rw [total] at known
        cases known

namespace Expr

variable {e : Expr Float} {find : String → Option Float} {taken : Nat}

/-- A formula has an outcome if it has room and everything that it adds has a sum. -/
theorem outcome_eq_ok_iff (proper : e.isProper) (x : Float) :
    e.outcome taken (lookUp find) = .ok x ↔ x = e.worth find ∧ e.fits taken ∧
      ∀ xs ∈ e.sums find, ¬ RunsOver xs ∧ ¬ Opposed xs := by
  have summed : (e.sums find).findSome? fault? = none ↔
      ∀ xs ∈ e.sums find, ¬ RunsOver xs ∧ ¬ Opposed xs := by
    rw [List.findSome?_eq_none_iff]
    exact forall₂_congr fun xs member => (fault?_exact (isNaN_of_mem_sums e xs member)).1
  rw [outcome, eval_eq e proper, decided, ← summed]
  cases e.fits taken with
  | false => simp
  | true =>
    cases (e.sums find).findSome? fault? with
    | none => simp [eq_comm]
    | some fault => simp

/-- A formula that has no outcome lacks room, or adds what has no sum. -/
theorem cause_of_outcome_error (proper : e.isProper) {error : EvalError}
    (stopped : e.outcome taken (lookUp find) = .error error) :
    (error = .stackExhausted ∧ e.fits taken = false) ∨
      ∃ xs ∈ e.sums find, (error = .arithmetic .overflow ∧ RunsOver xs) ∨
        (error = .arithmetic .oppositeInfinities ∧ Opposed xs) := by
  rw [outcome, eval_eq e proper, decided] at stopped
  cases room : e.fits taken with
  | false =>
    rw [room] at stopped
    cases stopped
    exact .inl ⟨rfl, rfl⟩
  | true =>
    rw [room] at stopped
    cases first : (e.sums find).findSome? fault? with
    | none =>
      rw [first] at stopped
      cases stopped
    | some fault =>
      rw [first] at stopped
      cases stopped
      obtain ⟨xs, member, cause⟩ := List.exists_of_findSome?_eq_some first
      refine .inr ⟨xs, member, ?_⟩
      obtain ⟨-, causes⟩ := fault?_exact (isNaN_of_mem_sums e xs member)
      rcases causes fault cause with ⟨rfl, runs⟩ | ⟨rfl, opposed⟩
      · exact .inl ⟨rfl, runs⟩
      · exact .inr ⟨rfl, opposed⟩

end Expr

/-- **What evaluating a formula comes to.** Where the stack has room, it gives the worth of the
formula if and only if nothing that it adds runs over or holds opposite infinities; these are the
only errors, and moderate numbers do not run over. A name that is not known, a quotient by zero and
an unknown function are worth no number. -/
theorem outcome_exact {e : Expr Float} (proper : e.isProper) (find : String → Option Float)
    (taken : Nat) :
    (∀ x, e.outcome taken (lookUp find) = .ok x ↔ x = e.worth find ∧ e.fits taken ∧
      ∀ xs ∈ e.sums find, ¬ RunsOver xs ∧ ¬ Opposed xs) ∧
    (∀ error, e.outcome taken (lookUp find) = .error error →
      (error = .stackExhausted ∧ e.fits taken = false) ∨
      ∃ xs ∈ e.sums find, (error = .arithmetic .overflow ∧ RunsOver xs) ∨
        (error = .arithmetic .oppositeInfinities ∧ Opposed xs)) ∧
    (e.fits taken → (∀ xs ∈ e.sums find, Moderate xs ∧ ¬ Opposed xs) →
      e.outcome taken (lookUp find) = .ok (e.worth find)) ∧
    (∀ name, find name = none → ((Expr.reference name).worth find).isNaN) ∧
    (∀ left right : Expr Float, right.worth find == 0 →
      ((Expr.binary .divide left right).worth find).isNaN) ∧
    ∀ callee arguments, Builtin.ofName? callee = none →
      ((Expr.call callee arguments).worth find).isNaN := by
  refine ⟨fun x => Expr.outcome_eq_ok_iff proper x,
    fun error stopped => Expr.cause_of_outcome_error proper stopped, fun room sums => ?_,
    fun name unknown => ?_, fun left right zero => ?_, fun callee arguments unknown => ?_⟩
  · refine (Expr.outcome_eq_ok_iff proper _).mpr ⟨rfl, room, fun xs member => ?_⟩
    exact ⟨ExactSum.not_runsOver_of_moderate (sums xs member).1, (sums xs member).2⟩
  · rw [Expr.worth, unknown]
    exact isNaN_nan
  · exact isNaN_divide _ zero
  · simp only [Expr.worth, unknown]
    exact isNaN_nan

/-- The theorem at `sum(a, b)` where only `a` is known. -/
theorem outcome_exact_sum :
    (Expr.call "sum" [.reference "a", .reference "b"]).outcome 0
      (lookUp fun name => if name = "a" then some 2 else none) = .ok 2 := by
  let e : Expr Float := .call "sum" [.reference "a", .reference "b"]
  let find : String → Option Float := fun name => if name = "a" then some 2 else none
  have called : Builtin.ofName? "sum" = some .sum := by decide
  have number : Scalar.isNaN (2 : Float) = false := rfl
  have none : Scalar.isNaN (Scalar.nan : Float) = true := rfl
  have added : e.sums find = [[2]] := by
    simp [e, find, Expr.sums, Expr.sumsAll, Expr.worthAll, Expr.worth, called, Builtin.addends,
      number, none]
  have value : e.worth find = 2 := by
    simp only [e, find, Expr.worth, Expr.worthAll, called]
    rfl
  have sums : ∀ xs ∈ e.sums find, ¬ RunsOver xs ∧ ¬ Opposed xs := by
    rw [added]
    intro xs member
    obtain rfl := List.mem_singleton.mp member
    exact (fault?_exact (List.forall_mem_singleton.mpr number)).1.mp rfl
  exact ((outcome_exact (e := e) rfl find 0).1 2).mpr ⟨value.symm, rfl, sums⟩

/-- **Sums can fail**: of opposite infinities, and of numbers that run over, here twice the half of
the range. -/
theorem outcome_of_sums :
    let find : String → Option Float := fun name =>
      if name = "a" then some (1.0 / 0.0) else if name = "b" then some (-1.0 / 0.0)
      else some (Float.ofBits 0x7FE0000000000000)
    (Expr.call "sum" [.reference "a", .reference "b"]).outcome 0 (lookUp find) =
        .error (.arithmetic .oppositeInfinities) ∧
      (Expr.call "avg" [.reference "c", .reference "c"]).outcome 0 (lookUp find) =
        .error (.arithmetic .overflow) :=
  ⟨rfl, rfl⟩

end BusinessCase.Formula
