/-
BusinessCase.Proofs.Formula.Walks — the walks over a tree as recursions on it.

`depth` and `nodes?` keep the nodes still to be visited in a list. Here the
same answers are said by recursion on the tree, which is what every other
proof about trees uses.

  §1 Recursions — `isProper`, `height`, `preorder`, `names`, `called`.
  §2 Parts      — `Occurs`, and what a tree has from its direct parts.
  §3 Depth      — `depth_eq`.
  §4 Nodes      — `nodes?_eq`, and what is read off the nodes.
  §5 Whole      — `walks_exact`.
-/
import BusinessCase.Formula.Expr
import Mathlib.Data.List.Basic

namespace BusinessCase.Formula.Expr

variable {α : Type}

/-! ## §1 Recursions -/

mutual

/-- Is every node one of the five kinds? -/
def isProper : Expr α → Bool
  | number _ | reference _ => true
  | unary _ argument => isProper argument
  | binary _ left right => isProper left && isProper right
  | call _ arguments => allProper arguments
  | foreign => false

/-- Is every node of several trees one of the five kinds? -/
def allProper : List (Expr α) → Bool
  | [] => true
  | e :: rest => isProper e && allProper rest

end

mutual

/-- The height of a tree, one for a leaf. -/
def height : Expr α → Nat
  | number _ | reference _ | foreign => 1
  | unary _ argument => height argument + 1
  | binary _ left right => max (height left) (height right) + 1
  | call _ arguments => heightAll arguments + 1

/-- The greatest height of several trees. -/
def heightAll : List (Expr α) → Nat
  | [] => 0
  | e :: rest => max (height e) (heightAll rest)

end

mutual

/-- The nodes of a tree, each before its parts and the parts from left to right. -/
def preorder : Expr α → List (Expr α)
  | number x => [number x]
  | reference name => [reference name]
  | unary op argument => unary op argument :: preorder argument
  | binary op left right => binary op left right :: (preorder left ++ preorder right)
  | call callee arguments => call callee arguments :: preorderAll arguments
  | foreign => [foreign]

/-- The nodes of several trees. -/
def preorderAll : List (Expr α) → List (Expr α)
  | [] => []
  | e :: rest => preorder e ++ preorderAll rest

end

mutual

/-- The names that a tree refers to, from left to right. -/
def names : Expr α → List String
  | number _ | foreign => []
  | reference name => [name]
  | unary _ argument => names argument
  | binary _ left right => names left ++ names right
  | call _ arguments => namesAll arguments

/-- The names that several trees refer to. -/
def namesAll : List (Expr α) → List String
  | [] => []
  | e :: rest => names e ++ namesAll rest

end

mutual

/-- The functions that a tree calls, each with its argument count, from left to right. -/
def called : Expr α → List (String × Nat)
  | number _ | reference _ | foreign => []
  | unary _ argument => called argument
  | binary _ left right => called left ++ called right
  | call callee arguments => (callee, arguments.length) :: calledAll arguments

/-- The functions that several trees call. -/
def calledAll : List (Expr α) → List (String × Nat)
  | [] => []
  | e :: rest => called e ++ calledAll rest

end

theorem one_le_height (e : Expr α) : 1 ≤ e.height := by
  cases e <;> simp [height]

theorem allProper_eq (es : List (Expr α)) : allProper es = es.all isProper := by
  induction es with
  | nil => simp [allProper]
  | cons e rest ih => simp [allProper, ih]

theorem heightAll_append (xs ys : List (Expr α)) :
    heightAll (xs ++ ys) = max (heightAll xs) (heightAll ys) := by
  induction xs with
  | nil => simp [heightAll]
  | cons x rest ih => simp [heightAll, ih, Nat.max_assoc]

theorem preorderAll_eq (es : List (Expr α)) : preorderAll es = es.flatMap preorder := by
  induction es with
  | nil => simp [preorderAll]
  | cons e rest ih => simp [preorderAll, ih]

theorem namesAll_eq (es : List (Expr α)) : namesAll es = es.flatMap names := by
  induction es with
  | nil => simp [namesAll]
  | cons e rest ih => simp [namesAll, ih]

theorem calledAll_eq (es : List (Expr α)) : calledAll es = es.flatMap called := by
  induction es with
  | nil => simp [calledAll]
  | cons e rest ih => simp [calledAll, ih]

theorem preorderAll_append (xs ys : List (Expr α)) :
    preorderAll (xs ++ ys) = preorderAll xs ++ preorderAll ys := by
  simp only [preorderAll_eq, List.flatMap_append]

theorem mem_preorderAll {node : Expr α} {es : List (Expr α)} :
    node ∈ preorderAll es ↔ ∃ e ∈ es, node ∈ e.preorder := by
  rw [preorderAll_eq, List.mem_flatMap]

theorem mem_namesAll {name : String} {es : List (Expr α)} :
    name ∈ namesAll es ↔ ∃ e ∈ es, name ∈ e.names := by
  rw [namesAll_eq, List.mem_flatMap]

/-- A tree is proper if it has parts and they are. -/
theorem isProper_of_children {e : Expr α} {parts : List (Expr α)} (h : e.children? = some parts) :
    e.isProper = allProper parts := by
  cases e <;> simp only [children?, Option.some.injEq, reduceCtorEq] at h <;> subst h <;>
    simp [isProper, allProper]

theorem isProper_of_children_none {e : Expr α} (h : e.children? = none) : e.isProper = false := by
  cases e <;> simp [children?] at h
  rw [isProper]

theorem height_of_children {e : Expr α} {parts : List (Expr α)} (h : e.children? = some parts) :
    e.height = heightAll parts + 1 := by
  cases e <;> simp only [children?, Option.some.injEq, reduceCtorEq] at h <;> subst h <;>
    simp [height, heightAll]

/-! ## §2 Parts -/

/-- The direct parts of a node; a foreign node has none. -/
def parts (e : Expr α) : List (Expr α) := e.children?.getD []

/-- The node stands somewhere in a tree: it is the root, or stands in a part. -/
inductive Occurs (node : Expr α) : Expr α → Prop where
  | root : Occurs node node
  | inside {e part : Expr α} (isPart : part ∈ e.parts) (occurs : Occurs node part) : Occurs node e

theorem occurs_iff {node e : Expr α} :
    Occurs node e ↔ node = e ∨ ∃ part ∈ e.parts, Occurs node part := by
  constructor
  · rintro (_ | ⟨isPart, occurs⟩)
    · exact .inl rfl
    · exact .inr ⟨_, isPart, occurs⟩
  · rintro (rfl | ⟨part, isPart, occurs⟩)
    · exact .root
    · exact .inside isPart occurs

theorem size_le_sizeAll {e : Expr α} {es : List (Expr α)} (member : e ∈ es) :
    e.size ≤ sizeAll es := by
  induction es with
  | nil => cases member
  | cons first rest ih =>
    rw [sizeAll]
    rcases List.mem_cons.mp member with rfl | later
    · exact Nat.le_add_right _ _
    · exact Nat.le_add_left_of_le (ih later)

theorem size_lt_of_mem_parts {e part : Expr α} (isPart : part ∈ e.parts) : part.size < e.size := by
  rw [parts] at isPart
  cases inner : e.children? with
  | none =>
    rw [inner] at isPart
    cases isPart
  | some parts =>
    rw [inner] at isPart
    rw [← sizeAll_children inner]
    exact Nat.lt_succ_of_le (size_le_sizeAll isPart)

/-- What a tree has whenever its direct parts have it, every tree has. -/
theorem of_parts {motive : Expr α → Prop}
    (step : ∀ e : Expr α, (∀ part ∈ e.parts, motive part) → motive e) (e : Expr α) : motive e :=
  step e fun part _isPart => of_parts step part
termination_by e.size
decreasing_by exact size_lt_of_mem_parts _isPart

theorem isProper_parts (e : Expr α) :
    e.isProper = (e.children?.isSome && e.parts.all isProper) := by
  cases e <;> simp [isProper, parts, children?, allProper_eq]

theorem preorder_parts (e : Expr α) : e.preorder = e :: e.parts.flatMap preorder := by
  cases e <;> simp [preorder, parts, children?, preorderAll_eq]

theorem names_parts (e : Expr α) :
    e.names = e.referenceName?.toList ++ e.parts.flatMap names := by
  cases e <;> simp [names, parts, children?, referenceName?, namesAll_eq]

theorem called_parts (e : Expr α) : e.called = e.callShape?.toList ++ e.parts.flatMap called := by
  cases e <;> simp [called, parts, children?, callShape?, calledAll_eq]

/-- The nodes in pre-order are those that stand somewhere in the tree. -/
theorem mem_preorder_iff {node : Expr α} (e : Expr α) : node ∈ e.preorder ↔ Occurs node e := by
  induction e using of_parts with
  | step e ih =>
    rw [preorder_parts, List.mem_cons, List.mem_flatMap, occurs_iff]
    exact or_congr_right (exists_congr fun part => and_congr_right (ih part))

theorem children?_eq_none_iff {e : Expr α} : e.children? = none ↔ foreign = e := by
  cases e <;> simp [children?]

/-- A tree is not proper exactly if a foreign node stands in it. -/
theorem isProper_eq_false_iff (e : Expr α) : e.isProper = false ↔ Occurs foreign e := by
  induction e using of_parts with
  | step e ih =>
    rw [isProper_parts, Bool.and_eq_false_iff, Option.isSome_eq_false_iff, Option.isNone_iff_eq_none,
      List.all_eq_false, children?_eq_none_iff, occurs_iff]
    refine or_congr_right (exists_congr fun part => and_congr_right fun isPart => ?_)
    rw [Bool.not_eq_true]
    exact ih part isPart

instance (e : Expr α) : Decidable (Occurs foreign e) :=
  decidable_of_iff (e.isProper = false) (isProper_eq_false_iff e)

/-! ## §3 Depth -/

/-- How deep the pending trees reach, each from the depth of its root, or `deepest`. -/
def reach (deepest : Nat) (pending : List (Expr α × Nat)) : Nat :=
  pending.foldr (fun tree deepest => max (tree.1.height + tree.2 - 1) deepest) deepest

theorem reach_append (deepest : Nat) (xs ys : List (Expr α × Nat)) :
    reach deepest (xs ++ ys) = reach (reach deepest ys) xs := by
  simp [reach]

theorem reach_max (a b : Nat) (pending : List (Expr α × Nat)) :
    reach (max a b) pending = max a (reach b pending) := by
  induction pending with
  | nil => rfl
  | cons tree rest ih =>
    simp only [reach, List.foldr_cons] at ih ⊢
    rw [ih]
    exact Nat.max_left_comm _ _ _

/-- The parts of a node at `depth` reach as deep as the highest of them. -/
theorem reach_parts {depth deepest : Nat} (below : depth ≤ deepest) (parts : List (Expr α)) :
    reach deepest (parts.map (·, depth + 1)) = max deepest (heightAll parts + depth) := by
  induction parts with
  | nil => simp [reach, heightAll, below]
  | cons e rest ih =>
    have positive := one_le_height e
    simp only [reach, List.map_cons, List.foldr_cons] at ih ⊢
    rw [ih, heightAll]
    omega

theorem reach_reverse (deepest : Nat) (pending : List (Expr α × Nat)) :
    reach deepest pending.reverse = reach deepest pending := by
  induction pending with
  | nil => rfl
  | cons tree rest ih =>
    rw [List.reverse_cons, reach_append]
    have single : reach deepest [tree] = max (tree.1.height + tree.2 - 1) deepest := rfl
    rw [single, reach_max, ih]
    rfl

/-- The walk finds how deep the pending trees reach, or a foreign node. -/
theorem depthFrom_eq (deepest : Nat) (pending : List (Expr α × Nat)) :
    depthFrom deepest pending =
      if allProper (pending.map Prod.fst) then some (reach deepest pending) else none := by
  fun_induction depthFrom deepest pending with
  | case1 deepest => simp [allProper, reach]
  | case2 deepest e depth rest leaf =>
    rw [List.map_cons, allProper, isProper_of_children_none leaf]
    simp
  | case3 deepest e depth rest parts inner ih =>
    have proper : allProper ((parts.reverse.map (·, depth + 1) ++ rest).map Prod.fst) =
        allProper (((e, depth) :: rest).map Prod.fst) := by
      simp [allProper_eq, isProper_of_children inner, Function.comp_def]
    have deep : reach (max deepest depth) (parts.reverse.map (·, depth + 1) ++ rest) =
        reach deepest ((e, depth) :: rest) := by
      rw [reach_append, List.map_reverse, reach_reverse, Nat.max_comm, reach_max,
        reach_parts (Nat.le_max_left _ _)]
      simp only [reach, List.foldr_cons]
      rw [height_of_children inner]
      omega
    rw [ih, proper, deep]

/-- **The depth of a tree is its height**, unless it holds a foreign node. -/
theorem depth_eq (e : Expr α) : e.depth = if e.isProper then some e.height else none := by
  rw [depth, depthFrom_eq]
  simp [allProper, reach]

/-! ## §4 Nodes -/

/-- The walk finds the nodes of the pending trees in pre-order, or a foreign node. -/
theorem nodesFrom_eq (pending : List (Expr α)) :
    nodesFrom pending = if allProper pending then some (preorderAll pending) else none := by
  fun_induction nodesFrom pending with
  | case1 => simp [allProper, preorderAll]
  | case2 e rest leaf => simp [allProper, isProper_of_children_none leaf]
  | case3 e rest parts inner ih =>
    have proper : allProper (parts ++ rest) = allProper (e :: rest) := by
      simp [allProper_eq, isProper_of_children inner]
    have node : e.preorder = e :: preorderAll parts := by
      rw [preorder_parts, Expr.parts, inner, Option.getD_some, preorderAll_eq]
    rw [ih, proper, preorderAll, node, preorderAll_append]
    split <;> simp

/-- **The nodes of a tree are listed in pre-order**, unless it holds a foreign node. -/
theorem nodes?_eq (e : Expr α) : e.nodes? = if e.isProper then some e.preorder else none := by
  rw [nodes?, nodesFrom_eq]
  simp [allProper, preorderAll]

/-- What is collected part by part is what is read off the nodes in pre-order. -/
theorem filterMap_preorder {β : Type} {ofNode : Expr α → Option β} {collect : Expr α → List β}
    (step : ∀ e, collect e = (ofNode e).toList ++ e.parts.flatMap collect) (e : Expr α) :
    e.preorder.filterMap ofNode = collect e := by
  induction e using of_parts with
  | step e ih =>
    rw [preorder_parts, step, List.filterMap_cons, List.filterMap_flatMap]
    have below : e.parts.flatMap (fun part => part.preorder.filterMap ofNode) =
        e.parts.flatMap collect := List.flatMap_congr ih
    cases ofNode e <;> simp [below]

theorem references?_eq (e : Expr α) :
    e.references? = if e.isProper then some e.names else none := by
  rw [references?, nodes?_eq]
  split
  · rw [Option.map_some, filterMap_preorder names_parts]
  · rfl

/-- The references of a proper tree are its names. -/
theorem references_eq {e : Expr α} (proper : e.isProper) : e.references = e.names := by
  rw [references, references?_eq, if_pos proper, Option.getD_some]

theorem calls?_eq (e : Expr α) : e.calls? = if e.isProper then some e.called else none := by
  rw [calls?, nodes?_eq]
  split
  · rw [Option.map_some, filterMap_preorder called_parts]
  · rfl

/-! ## §5 Whole -/

theorem ite_isProper {β : Type} (e : Expr α) (answer : β) :
    (if e.isProper then some answer else none) = if Occurs foreign e then none else some answer := by
  have iff := isProper_eq_false_iff e
  cases proper : e.isProper <;> simp [proper] at iff <;> simp [iff]

/-- **Walks with a list of pending nodes are the recursions on the tree.** The depth is the height,
the nodes are those of the tree in pre-order, and so the references and calls are collected part by
part from left to right. Each walk is refused exactly where a foreign node stands in the tree. -/
theorem walks_exact (e : Expr α) :
    e.depth = (if Occurs foreign e then none else some e.height) ∧
    e.nodes? = (if Occurs foreign e then none else some e.preorder) ∧
    e.references? = (if Occurs foreign e then none else some e.names) ∧
    e.calls? = (if Occurs foreign e then none else some e.called) ∧
    ∀ node, node ∈ e.preorder ↔ Occurs node e := by
  refine ⟨?_, ?_, ?_, ?_, fun node => mem_preorder_iff e⟩
  · rw [depth_eq, ite_isProper]
  · rw [nodes?_eq, ite_isProper]
  · rw [references?_eq, ite_isProper]
  · rw [calls?_eq, ite_isProper]

end BusinessCase.Formula.Expr
