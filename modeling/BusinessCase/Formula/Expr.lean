/-
BusinessCase.Formula.Expr — formulas as trees, and walks over them.

A tree may come from outside the parser, so it can hold an operator that no
formula writes, or a node that is none of the five kinds. Walks refuse a tree
with such a foreign node.

  §1 Type  — `Operator`, `Expr`.
  §2 Size  — the measure of the walks.
  §3 Walks — `depth`, `nodes?`; both keep the nodes still to be visited in a list.
  §4 Names — `references` and `calls`.
-/

namespace BusinessCase.Formula

/-! ## §1 Type -/

/-- Operators; `other` is a sign that no formula writes and that gives no number. -/
inductive Operator where
  | plus
  | minus
  | times
  | divide
  | other (sign : String)
  deriving DecidableEq

def Operator.sign : Operator → String
  | plus => "+"
  | minus => "-"
  | times => "*"
  | divide => "/"
  | other sign => sign

def Operator.ofSign (sign : String) : Operator :=
  if sign = "+" then plus
  else if sign = "-" then minus
  else if sign = "*" then times
  else if sign = "/" then divide
  else other sign

/-- A formula over numbers of type `α`. -/
inductive Expr (α : Type) where
  | number (value : α)
  | reference (name : String)
  | unary (op : Operator) (argument : Expr α)
  | binary (op : Operator) (left right : Expr α)
  | call (callee : String) (arguments : List (Expr α))
  | foreign

namespace Expr

variable {α : Type}

/-! ## §2 Size -/

mutual

def size : Expr α → Nat
  | number _ | reference _ | foreign => 1
  | unary _ argument => argument.size + 1
  | binary _ left right => left.size + right.size + 1
  | call _ arguments => sizeAll arguments + 1

def sizeAll : List (Expr α) → Nat
  | [] => 0
  | e :: rest => e.size + sizeAll rest

end

theorem sizeAll_append (xs ys : List (Expr α)) :
    sizeAll (xs ++ ys) = sizeAll xs + sizeAll ys := by
  induction xs with
  | nil => simp [sizeAll]
  | cons x rest ih => simp [sizeAll, ih, Nat.add_assoc]

theorem sizeAll_reverse (xs : List (Expr α)) : sizeAll xs.reverse = sizeAll xs := by
  induction xs with
  | nil => rfl
  | cons x rest ih => simp [sizeAll_append, sizeAll, ih, Nat.add_comm]

/-- The direct parts of a node from left to right; a foreign node has no known parts. -/
def children? : Expr α → Option (List (Expr α))
  | number _ | reference _ => some []
  | unary _ argument => some [argument]
  | binary _ left right => some [left, right]
  | call _ arguments => some arguments
  | foreign => none

/-- A node is one more than its parts. -/
theorem sizeAll_children {e : Expr α} {parts : List (Expr α)} (h : e.children? = some parts) :
    sizeAll parts + 1 = e.size := by
  cases e <;> simp only [children?, Option.some.injEq, reduceCtorEq] at h <;> subst h <;>
    simp [size, sizeAll]

/-! ## §3 Walks -/

/-- The greater of `deepest` and the depths of the trees still pending, each with the depth at
which its root stands. -/
def depthFrom (deepest : Nat) (pending : List (Expr α × Nat)) : Option Nat :=
  match pending with
  | [] => some deepest
  | (e, depth) :: rest =>
    match _parts : e.children? with
    | none => none
    | some parts =>
      depthFrom (max deepest depth) (parts.reverse.map (·, depth + 1) ++ rest)
termination_by sizeAll (pending.map Prod.fst)
decreasing_by
  have parts_size := sizeAll_children _parts
  have reversed : sizeAll (List.map (Prod.fst ∘ fun x => (x, depth + 1)) parts.reverse) =
      sizeAll parts := by
    rw [show (Prod.fst ∘ fun x : Expr α => (x, depth + 1)) = id from rfl, List.map_id,
      sizeAll_reverse]
  simp only [List.map_append, List.map_map, List.map_cons, sizeAll_append, reversed, sizeAll]
  omega

/-- The height of a tree, one for a leaf; nothing where the tree holds a foreign node. -/
def depth (e : Expr α) : Option Nat := depthFrom 0 [(e, 1)]

/-- The nodes of the pending trees, each before its parts and the parts from left to right. -/
def nodesFrom (pending : List (Expr α)) : Option (List (Expr α)) :=
  match pending with
  | [] => some []
  | e :: rest =>
    match _parts : e.children? with
    | none => none
    | some parts => (nodesFrom (parts ++ rest)).map (e :: ·)
termination_by sizeAll pending
decreasing_by
  have parts_size := sizeAll_children _parts
  simp only [sizeAll_append, sizeAll]
  omega

/-- All nodes of a tree in pre-order; nothing where the tree holds a foreign node. -/
def nodes? (e : Expr α) : Option (List (Expr α)) := nodesFrom [e]

/-! ## §4 Names -/

def referenceName? : Expr α → Option String
  | reference name => some name
  | _ => none

/-- The function that a node calls, and with how many arguments. -/
def callShape? : Expr α → Option (String × Nat)
  | call callee arguments => some (callee, arguments.length)
  | _ => none

/-- The names of all references in pre-order; names of functions are none. -/
def references? (e : Expr α) : Option (List String) :=
  e.nodes?.map (·.filterMap referenceName?)

/-- The functions called and their argument counts, in pre-order. -/
def calls? (e : Expr α) : Option (List (String × Nat)) :=
  e.nodes?.map (·.filterMap callShape?)

/-- The names of all references; a tree with a foreign node refers to nothing. -/
def references (e : Expr α) : List String := e.references?.getD []

/-- The calls of a tree; a tree with a foreign node calls nothing. -/
def calls (e : Expr α) : List (String × Nat) := e.calls?.getD []

end Expr

end BusinessCase.Formula
