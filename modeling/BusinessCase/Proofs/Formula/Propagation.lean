/-
BusinessCase.Proofs.Formula.Propagation — how far no number spreads.

A name with nothing under it, a quotient by zero and an unknown function are no
numbers. Every operator passes that on, on either side, whatever is on the other;
and an unknown function is no number whatever its arguments are. So it reaches
the root of a formula from everywhere but the arguments of a built-in function.

  §1 Nodes   — `Expr.besides`, the nodes outside the arguments of some calls.
  §2 Origins — `Expr.Unknown`, where no number comes from.
  §3 Spread  — operators, and from them `isNaN_of_isNaN_part`.
-/
import BusinessCase.Proofs.Formula.Evaluation
import BusinessCase.Proofs.Formula.Outcome

namespace BusinessCase.Formula

/-! ## §1 Nodes -/

/-- Is there a built-in function of that name? -/
def isBuiltin (callee : String) : Bool := (Builtin.ofName? callee).isSome

namespace Expr

section Nodes

variable {α : Type} (closed : String → Bool)

mutual

/-- The nodes of a tree in pre-order, without those in the arguments of calls that are closed. -/
def besides : Expr α → List (Expr α)
  | number x => [number x]
  | reference name => [reference name]
  | unary op argument => unary op argument :: argument.besides
  | binary op left right => binary op left right :: (left.besides ++ right.besides)
  | call callee arguments =>
    call callee arguments :: if closed callee then [] else besidesAll arguments
  | foreign => [foreign]

def besidesAll : List (Expr α) → List (Expr α)
  | [] => []
  | e :: rest => e.besides ++ besidesAll rest

end

/-- Nodes with nothing but operators around them are outside the arguments of any calls. -/
theorem besides_subset : (e : Expr α) → e.besides (fun _ => true) ⊆ e.besides closed
  | number _ | reference _ | foreign => List.Subset.refl _
  | unary _ argument => List.cons_subset_cons _ (besides_subset argument)
  | binary _ left right => by
    refine List.cons_subset_cons _ (List.append_subset.mpr ⟨?_, ?_⟩)
    · exact List.subset_append_of_subset_left _ (besides_subset left)
    · exact List.subset_append_of_subset_right _ (besides_subset right)
  | call callee arguments => List.cons_subset_cons _ (List.nil_subset _)

end Nodes

/-! ## §2 Origins -/

/-- Where no number comes from: a node that is none whatever stands beside it. -/
inductive Unknown (look : String → Except EvalError Float) : Expr Float → Prop where
  /-- Nothing stands under the name. -/
  | reference {name : String} {x : Float} (given : look name = .ok x) (missing : x.isNaN) :
    Unknown look (.reference name)
  /-- The divisor comes to zero. -/
  | quotient {left right : Expr Float} {y : Float} (given : right.eval look = .ok y)
    (zero : y == 0) : Unknown look (.binary .divide left right)
  | function {callee : String} {arguments : List (Expr Float)}
    (unknown : Builtin.ofName? callee = none) : Unknown look (.call callee arguments)

variable {look : String → Except EvalError Float} {part e : Expr Float} {x y : Float}

theorem eval_unary_eq_ok {op : Operator} (value : (unary op e).eval look = .ok y) :
    ∃ x, e.eval look = .ok x ∧ y = op.applySign x := by
  rw [eval] at value
  split at value
  · next x inner => exact ⟨x, inner, (Except.ok.inj value).symm⟩
  · cases value

theorem eval_binary_eq_ok {op : Operator} {left right : Expr Float} {z : Float}
    (value : (binary op left right).eval look = .ok z) :
    ∃ x y, left.eval look = .ok x ∧ right.eval look = .ok y ∧ z = op.apply x y := by
  rw [eval] at value
  split at value
  · cases value
  · next x first =>
    split at value
    · cases value
    · next y second => exact ⟨x, y, first, second, (Except.ok.inj value).symm⟩

theorem eval_call_of_unknown {callee : String} {arguments : List (Expr Float)}
    (unknown : Builtin.ofName? callee = none) :
    (call callee arguments).eval look = .ok Scalar.nan := by
  rw [eval, unknown]

/-- What is unknown is no number, if it has a value at all. -/
theorem Unknown.isNaN (unknown : part.Unknown look) (value : part.eval look = .ok y) :
    y.isNaN := by
  cases unknown with
  | reference given missing =>
    rw [eval, given] at value
    exact Except.ok.inj value ▸ missing
  | quotient given zero =>
    obtain ⟨x, divisor, -, second, rfl⟩ := eval_binary_eq_ok value
    rw [given] at second
    exact isNaN_divide x (Except.ok.inj second ▸ zero)
  | function unknown =>
    rw [eval_call_of_unknown unknown] at value
    exact Except.ok.inj value ▸ isNaN_nan

end Expr

/-! ## §3 Spread -/

theorem Operator.isNaN_applySign (op : Operator) {x : Float} (none : x.isNaN) :
    (op.applySign x).isNaN := by
  have lost : Scalar.isNaN x = true := none
  unfold applySign
  rw [if_pos lost]
  exact isNaN_nan

/-- An operator passes no number on from either side. -/
theorem Operator.isNaN_apply (op : Operator) {x y : Float} (none : x.isNaN ∨ y.isNaN) :
    (op.apply x y).isNaN := by
  have lost : (Scalar.isNaN x || Scalar.isNaN y) = true := Bool.or_eq_true_iff.mpr none
  unfold apply
  rw [if_pos lost]
  exact isNaN_nan

namespace Expr

variable {look : String → Except EvalError Float} {part : Expr Float}

/-- If a part outside the arguments of built-in functions can be no number at most, so can the
whole. -/
theorem isNaN_of_mem_besides (lost : ∀ x, part.eval look = .ok x → x.isNaN) :
    (e : Expr Float) → part ∈ e.besides isBuiltin → ∀ y, e.eval look = .ok y → y.isNaN
  | number _, within, y, value | reference _, within, y, value | foreign, within, y, value => by
    obtain rfl := List.mem_singleton.mp within
    exact lost y value
  | unary op argument, within, y, value => by
    rcases List.mem_cons.mp within with rfl | inside
    · exact lost y value
    · obtain ⟨x, inner, rfl⟩ := eval_unary_eq_ok value
      exact op.isNaN_applySign (isNaN_of_mem_besides lost argument inside x inner)
  | binary op left right, within, z, value => by
    rcases List.mem_cons.mp within with rfl | inside
    · exact lost z value
    · obtain ⟨x, y, first, second, rfl⟩ := eval_binary_eq_ok value
      refine op.isNaN_apply ((List.mem_append.mp inside).imp ?_ ?_)
      · exact fun inside => isNaN_of_mem_besides lost left inside x first
      · exact fun inside => isNaN_of_mem_besides lost right inside y second
  | call callee arguments, within, y, value => by
    rcases List.mem_cons.mp within with rfl | inside
    · exact lost y value
    · cases called : Builtin.ofName? callee with
      | none => exact (Unknown.function called).isNaN value
      | some f =>
        rw [if_pos (by rw [isBuiltin, called]; rfl)] at inside
        cases inside

/-- **No number reaches the root.** If a formula has a value, this is no number wherever a part is
none that has nothing but operators around it. And wherever a name is missing, a divisor is zero or a
function is unknown outside the arguments of built-in functions, the value is no number either. -/
theorem isNaN_of_isNaN_part {e : Expr Float} {taken : Nat} {y : Float}
    (value : e.outcome taken look = .ok y) :
    (∀ part ∈ e.besides (fun _ => true), ∀ x, part.eval look = .ok x → x.isNaN → y.isNaN) ∧
    ∀ part ∈ e.besides isBuiltin, part.Unknown look → y.isNaN := by
  have whole : e.eval look = .ok y := eval_of_outcome value
  refine ⟨fun part within x inner none => ?_, fun part within unknown => ?_⟩
  · have lost : ∀ z, part.eval look = .ok z → z.isNaN := by
      intro z again
      rw [inner] at again
      exact Except.ok.inj again ▸ none
    exact isNaN_of_mem_besides lost e (besides_subset _ e within) y whole
  · exact isNaN_of_mem_besides (fun _ inner => unknown.isNaN inner) e within y whole

/-- The theorem at `2 * -(f(a) / 0)`: the quotient is no number, and `f` is unknown. -/
theorem isNaN_of_isNaN_part_quotient :
    let look : String → Except EvalError Float := fun _ => .ok 1
    let function : Expr Float := .call "f" [.reference "a"]
    let quotient : Expr Float := .binary .divide function (.number 0)
    let e : Expr Float := .binary .times (.number 2) (.unary .minus quotient)
    ∃ x y, e.outcome 0 look = .ok y ∧ quotient ∈ e.besides (fun _ => true) ∧
      quotient.eval look = .ok x ∧ x.isNaN ∧ function ∈ e.besides isBuiltin ∧
      function.Unknown look ∧ y.isNaN := by
  intro look function quotient e
  have value : e.outcome 0 look = .ok Scalar.nan := rfl
  have within : quotient ∈ e.besides (fun _ => true) := by
    simp [e, quotient, besides]
  have called : function ∈ e.besides isBuiltin := by simp [e, quotient, function, besides]
  have inner : quotient.eval look = .ok Scalar.nan := rfl
  exact ⟨_, _, value, within, inner, isNaN_nan, called, .function (by decide),
    (isNaN_of_isNaN_part value).1 quotient within _ inner isNaN_nan⟩

-- Inside the arguments of a built-in function it can be lost: `ifnull(1 / 0, 7)`.
example (look : String → Except EvalError Float) :
    (call "ifnull" [.binary .divide (.number 1) (.number 0), .number 7]).eval look =
      .ok (7 : Float) := rfl

end Expr

end BusinessCase.Formula
