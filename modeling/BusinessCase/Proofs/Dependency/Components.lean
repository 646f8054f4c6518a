/-
BusinessCase.Proofs.Dependency.Components — the search closes exactly the
components of mutually reachable ids.

`Consistent` says what holds between two steps: an id on the path leads to
everything that was met after it, everything on the stack leads back to the
path, and what was found from an id bounds where its part of the stack leads.
So an id from which nothing below its own number was found has above it on the
stack exactly the ids that it reaches and that reach it.

  §1 Marks      — what each note changes.
  §2 Stack      — `Stacked`: the stack and the path on it, and that each note keeps them.
  §3 Invariant  — `Consistent`, and what it says of the path.
  §4 Steps      — each note that closes nothing keeps it.
  §5 Components — closing a component keeps it.
  §6 Search     — `ongoing_search`: the ids noted are those on cycles.
-/
import BusinessCase.Proofs.Dependency.Search

namespace BusinessCase.DependencyMap

variable {links : Links} {marks : Marks} {path : List String}
  {waits waits' : String → String → Prop} {id other a b : String}

/-! ## §1 Marks -/

namespace Marks

theorem lower_lowOf_self (number : Nat) :
    (marks.lower id number).lowOf id = min (marks.lowOf id) number := by
  simp [lower, lowOf]

theorem lower_lowOf_of_ne (number : Nat) (h : other ≠ id) :
    (marks.lower id number).lowOf other = marks.lowOf other := by
  rw [lower, lowOf, Std.HashMap.getD_insert, if_neg (by simpa using h.symm), lowOf]

theorem lower_lowOf_le (number : Nat) :
    (marks.lower id number).lowOf other ≤ marks.lowOf other := by
  by_cases same : other = id
  · rw [same, lower_lowOf_self]
    exact Nat.min_le_left _ _
  · exact Nat.le_of_eq (lower_lowOf_of_ne number same)

theorem mem_discover_index : a ∈ (marks.discover id).index ↔ a = id ∨ a ∈ marks.index := by
  rw [discover, Std.HashMap.mem_insert, beq_iff_eq, eq_comm]

theorem discover_indexOf_self : (marks.discover id).indexOf id = marks.index.size := by
  simp [discover, indexOf]

theorem discover_lowOf_self : (marks.discover id).lowOf id = marks.index.size := by
  simp [discover, lowOf]

theorem discover_indexOf_of_ne (h : a ≠ id) :
    (marks.discover id).indexOf a = marks.indexOf a := by
  rw [discover, indexOf, Std.HashMap.getD_insert, if_neg (by simpa using h.symm), indexOf]

theorem discover_lowOf_of_ne (h : a ≠ id) : (marks.discover id).lowOf a = marks.lowOf a := by
  rw [discover, lowOf, Std.HashMap.getD_insert, if_neg (by simpa using h.symm), lowOf]

end Marks

/-- The stack down to an id on it. -/
theorem popThrough_eq {stack : List String} (h : id ∈ stack) :
    ∃ above below, stack = above ++ id :: below ∧
      popThrough id stack = (above ++ [id], below) := by
  induction stack with
  | nil => cases h
  | cons top rest ih =>
    by_cases same : top = id
    · exact ⟨[], rest, by rw [same]; rfl, by rw [popThrough, if_pos same, same]; rfl⟩
    · obtain ⟨above, below, split, popped⟩ :=
        ih ((List.mem_cons.mp h).resolve_left fun h => same h.symm)
      refine ⟨top :: above, below, by rw [split]; rfl, ?_⟩
      rw [popThrough, if_neg same, popped]
      rfl

/-- The two parts of a stack on which the numbers fall, told by the number of the id between. -/
theorem mem_split_of_falling {stack above below : List String} (number : String → Nat)
    (split : stack = above ++ id :: below)
    (falling : stack.Pairwise fun a b => number b < number a) :
    (∀ a, a ∈ above ++ [id] ↔ a ∈ stack ∧ number id ≤ number a) ∧
      ∀ a, a ∈ below ↔ a ∈ stack ∧ number a < number id := by
  subst split
  obtain ⟨-, falls, before⟩ := List.pairwise_append.mp falling
  have higher (a : String) (member : a ∈ above) : number id < number a :=
    before a member id List.mem_cons_self
  have deeper (a : String) (member : a ∈ below) : number a < number id :=
    (List.pairwise_cons.mp falls).1 a member
  constructor
  · intro a
    simp only [List.mem_append, List.mem_cons, List.not_mem_nil, or_false]
    constructor
    · rintro (member | rfl)
      · exact ⟨.inl member, Nat.le_of_lt (higher a member)⟩
      · exact ⟨.inr (.inl rfl), Nat.le_refl _⟩
    · rintro ⟨member | rfl | member, up⟩
      · exact .inl member
      · exact .inr rfl
      · exact absurd (deeper a member) (Nat.not_lt.mpr up)
  · intro a
    simp only [List.mem_append, List.mem_cons]
    constructor
    · intro member
      exact ⟨.inr (.inr member), deeper a member⟩
    · rintro ⟨member | rfl | member, down⟩
      · exact absurd (higher a member) (Nat.not_lt.mpr (Nat.le_of_lt down))
      · exact absurd down (Nat.lt_irrefl _)
      · exact member

theorem mem_foldl_erase {ids : List String} {set : Std.HashSet String} :
    a ∈ ids.foldl (·.erase ·) set ↔ a ∈ set ∧ a ∉ ids := by
  induction ids generalizing set with
  | nil => simp
  | cons id ids ih =>
    rw [List.foldl_cons, ih, Std.HashSet.mem_erase, List.mem_cons, not_or]
    constructor
    · rintro ⟨⟨distinct, member⟩, out⟩
      exact ⟨member, fun same => by simp [same] at distinct, out⟩
    · rintro ⟨member, distinct, out⟩
      exact ⟨⟨by simpa using fun same : id = a => distinct same.symm, member⟩, out⟩

namespace Marks

section Close

variable {component below : List String} {refersToItself : Bool}
  (popped : popThrough id marks.stack = (component, below))

include popped

theorem close_stack : (marks.close id refersToItself).stack = below := by
  simp only [close, popped]

theorem mem_close_onStack :
    a ∈ (marks.close id refersToItself).onStack ↔ a ∈ marks.onStack ∧ a ∉ component := by
  simp only [close, popped]
  exact mem_foldl_erase

theorem mem_close_inCycle :
    a ∈ (marks.close id refersToItself).inCycle ↔
      a ∈ marks.inCycle ∨ a ∈ component ∧ (component.length > 1 ∨ refersToItself = true) := by
  simp only [close, popped]
  split
  · next cyclic =>
    have holds : component.length > 1 ∨ refersToItself = true := by simpa using cyclic
    simp [Std.HashSet.mem_insertMany_list, holds]
  · next acyclic =>
    have fails : ¬ (component.length > 1 ∨ refersToItself = true) := by simpa using acyclic
    simp [fails]

end Close

end Marks

/-! ## §2 Stack -/

/-- The stack and the path, which are the ids under visit with the last one first, as the ids on
them are numbered. -/
structure Stacked (marks : Marks) (path : List String) : Prop where
  bound : ∀ a ∈ marks.index, marks.indexOf a < marks.index.size
  met : ∀ a ∈ marks.stack, a ∈ marks.index
  falling : marks.stack.Pairwise fun a b => marks.indexOf b < marks.indexOf a
  onStack : ∀ a, a ∈ marks.onStack ↔ a ∈ marks.stack
  onPath : ∀ v ∈ path, v ∈ marks.stack
  order : path.Pairwise fun v w => marks.indexOf w < marks.indexOf v

namespace Stacked

theorem onPath_met (h : Stacked marks path) (onPath : a ∈ path) : a ∈ marks.index :=
  h.met a (h.onPath a onPath)

theorem lt_of_onPath (h : Stacked marks (id :: path)) (below : a ∈ path) :
    marks.indexOf a < marks.indexOf id :=
  (List.pairwise_cons.mp h.order).1 a below

/-- The path without its last id, which stays on the stack. -/
theorem tail (h : Stacked marks (id :: path)) : Stacked marks path :=
  { h with onPath := fun v below => h.onPath v (List.mem_cons_of_mem id below)
           order := (List.pairwise_cons.mp h.order).2 }

theorem discover_indexOf (new : id ∉ marks.index) (known : a ∈ marks.index) :
    (marks.discover id).indexOf a = marks.indexOf a :=
  Marks.discover_indexOf_of_ne fun same => new (same ▸ known)

theorem discover_lowOf (new : id ∉ marks.index) (known : a ∈ marks.index) :
    (marks.discover id).lowOf a = marks.lowOf a :=
  Marks.discover_lowOf_of_ne fun same => new (same ▸ known)

/-- Meeting an id closes nothing. -/
theorem discover_off (new : id ∉ marks.index) :
    (a ∈ (marks.discover id).index ∧ a ∉ (marks.discover id).stack) ↔
      a ∈ marks.index ∧ a ∉ marks.stack := by
  rw [Marks.mem_discover_index, Marks.discover, List.mem_cons, not_or]
  constructor
  · rintro ⟨met, distinct, off⟩
    exact ⟨met.resolve_left distinct, off⟩
  · rintro ⟨known, off⟩
    exact ⟨.inr known, fun same => new (same ▸ known), off⟩

/-- The id met last has the highest number. -/
theorem discover_lt (h : Stacked marks path) (new : id ∉ marks.index) (known : a ∈ marks.index) :
    (marks.discover id).indexOf a < (marks.discover id).indexOf id := by
  rw [discover_indexOf new known, Marks.discover_indexOf_self]
  exact h.bound a known

theorem discover (h : Stacked marks path) (new : id ∉ marks.index) :
    Stacked (marks.discover id) (id :: path) := by
  constructor
  case bound =>
    intro a met
    have size : (marks.discover id).index.size = marks.index.size + 1 := by
      rw [Marks.discover, Std.HashMap.size_insert, if_neg new]
    rcases Marks.mem_discover_index.mp met with rfl | known
    · rw [Marks.discover_indexOf_self, size]
      exact Nat.lt_succ_self _
    · rw [discover_indexOf new known, size]
      exact Nat.lt_succ_of_lt (h.bound a known)
  case met =>
    intro a onStack
    rcases List.mem_cons.mp onStack with rfl | before
    · exact Marks.mem_discover_index.mpr (.inl rfl)
    · exact Marks.mem_discover_index.mpr (.inr (h.met a before))
  case falling =>
    refine List.pairwise_cons.mpr ⟨fun a onStack => h.discover_lt new (h.met a onStack), ?_⟩
    refine h.falling.imp_of_mem fun first second falls => ?_
    rw [discover_indexOf new (h.met _ first), discover_indexOf new (h.met _ second)]
    exact falls
  case onStack =>
    intro a
    rw [Marks.discover, Std.HashSet.mem_insert, beq_iff_eq, h.onStack, List.mem_cons, eq_comm]
  case onPath =>
    intro v onPath
    rcases List.mem_cons.mp onPath with rfl | before
    · exact List.mem_cons_self
    · exact List.mem_cons_of_mem id (h.onPath v before)
  case order =>
    refine List.pairwise_cons.mpr ⟨fun v onPath => h.discover_lt new (h.onPath_met onPath), ?_⟩
    refine h.order.imp_of_mem fun first second falls => ?_
    rw [discover_indexOf new (h.onPath_met first), discover_indexOf new (h.onPath_met second)]
    exact falls

section Close

variable {refersToItself : Bool} (h : Stacked marks (id :: path))

include h

/-- What is popped with the id is the part of the stack that was met since. -/
theorem exists_popped :
    ∃ above below, marks.stack = above ++ id :: below ∧
      popThrough id marks.stack = (above ++ [id], below) ∧
      (∀ a, a ∈ above ++ [id] ↔ a ∈ marks.stack ∧ marks.indexOf id ≤ marks.indexOf a) ∧
      ∀ a, a ∈ below ↔ a ∈ marks.stack ∧ marks.indexOf a < marks.indexOf id := by
  obtain ⟨above, below, split, popped⟩ := popThrough_eq (h.onPath id List.mem_cons_self)
  exact ⟨above, below, split, popped, mem_split_of_falling marks.indexOf split h.falling⟩

theorem mem_close_stack :
    a ∈ (marks.close id refersToItself).stack ↔
      a ∈ marks.stack ∧ marks.indexOf a < marks.indexOf id := by
  obtain ⟨above, below, -, popped, -, left⟩ := h.exists_popped
  rw [Marks.close_stack popped, left]

/-- An id is off the stack if it was so before or is in the component that is closed. -/
theorem not_mem_close_stack :
    a ∉ (marks.close id refersToItself).stack ↔
      a ∉ marks.stack ∨ a ∈ marks.stack ∧ marks.indexOf id ≤ marks.indexOf a := by
  rw [h.mem_close_stack, not_and, Nat.not_lt]
  constructor
  · intro out
    by_cases onStack : a ∈ marks.stack
    · exact .inr ⟨onStack, out onStack⟩
    · exact .inl onStack
  · rintro (out | ⟨-, up⟩) onStack
    · exact absurd onStack out
    · exact up

theorem close : Stacked (marks.close id refersToItself) path := by
  obtain ⟨above, below, split, popped, component, left⟩ := h.exists_popped
  have stack : (marks.close id refersToItself).stack = below := Marks.close_stack popped
  constructor
  case bound => exact h.bound
  case met => exact fun a member => h.met a (h.mem_close_stack.mp member).1
  case falling =>
    rw [stack]
    have sublist : below.Sublist marks.stack :=
      split ▸ (List.sublist_cons_self id below).trans (List.sublist_append_right above _)
    exact h.falling.sublist sublist
  case onStack =>
    intro a
    rw [Marks.mem_close_onStack popped, h.mem_close_stack, h.onStack, component]
    exact and_congr_right fun onStack => by simp [onStack]
  case onPath =>
    intro v member
    exact h.mem_close_stack.mpr ⟨h.tail.onPath v member, h.lt_of_onPath member⟩
  case order => exact h.tail.order

end Close

end Stacked

/-! ## §3 Invariant -/

/-- One or more steps lead from `a` to `b`, or they are the same. -/
abbrev Links.Reaches (links : Links) : String → String → Prop :=
  Relation.ReflTransGen (LeadsTo links.next)

/-- Some steps, at least one, lead from the id back to it. -/
abbrev Links.Returns (links : Links) (id : String) : Prop :=
  Relation.TransGen (LeadsTo links.next) id id

/-- What holds between two steps of the search; `waits a b` says that `a` on the path leads to `b`
and the search has not followed that. -/
structure Consistent (links : Links) (marks : Marks) (path : List String)
    (waits : String → String → Prop) : Prop extends Stacked marks path where
  waiting : ∀ a b, waits a b → a ∈ path ∧ LeadsTo links.next a b
  followed : ∀ a ∈ marks.index, ∀ b, LeadsTo links.next a b → ¬ waits a b → b ∈ marks.index
  /-- An id on the path leads to everything that was met after it. -/
  after : ∀ v ∈ path, ∀ a ∈ marks.index, marks.indexOf v ≤ marks.indexOf a → links.Reaches v a
  /-- What is on the stack leads back to the path. -/
  back : ∀ a ∈ marks.stack, ∃ v ∈ path, marks.indexOf v ≤ marks.indexOf a ∧ links.Reaches a v
  closed : ∀ a ∈ marks.index, a ∉ marks.stack → ∀ b, LeadsTo links.next a b →
    b ∈ marks.index ∧ b ∉ marks.stack
  inCycle : ∀ a, a ∈ marks.inCycle ↔ (a ∈ marks.index ∧ a ∉ marks.stack) ∧ links.Returns a
  /-- What was found from an id is the number of an id that it leads to. -/
  found : ∀ v ∈ path, marks.lowOf v ≤ marks.indexOf v ∧
    ∃ a ∈ marks.stack, marks.indexOf a = marks.lowOf v ∧ links.Reaches v a
  /-- No step from the part of the stack above `v` leads below what was found from there. -/
  lowest : ∀ a ∈ marks.stack, ∀ b ∈ marks.stack, LeadsTo links.next a b → ¬ waits a b →
    ∀ v ∈ path, marks.indexOf v ≤ marks.indexOf a →
      ∃ w ∈ path, marks.indexOf v ≤ marks.indexOf w ∧ marks.lowOf w ≤ marks.indexOf b

namespace Consistent

/-- An id that is not on the stack any more leads to such ids only. -/
theorem closed_of_reaches (h : Consistent links marks path waits)
    (member : a ∈ marks.index ∧ a ∉ marks.stack) (reaches : links.Reaches a b) :
    b ∈ marks.index ∧ b ∉ marks.stack := by
  induction reaches with
  | refl => exact member
  | tail _ step ih => exact h.closed _ ih.1 ih.2 _ step

/-- Nothing is left on the stack when the path is empty. -/
theorem stack_eq_nil (h : Consistent links marks [] waits) : marks.stack = [] := by
  refine List.eq_nil_iff_forall_not_mem.mpr fun a member => ?_
  obtain ⟨v, none, -⟩ := h.back a member
  cases none

/-! ## §4 Steps -/

/-- Meeting an id leaves what bounds the steps between ids met before. -/
theorem discover_lowest (h : Consistent links marks path waits) (new : id ∉ marks.index)
    (fromStack : a ∈ marks.stack) (toStack : b ∈ (marks.discover id).stack)
    (leads : LeadsTo links.next a b) (followed : ¬ waits a b) {v : String} (onPath : v ∈ path)
    (up : (marks.discover id).indexOf v ≤ (marks.discover id).indexOf a) :
    ∃ w ∈ path, (marks.discover id).indexOf v ≤ (marks.discover id).indexOf w ∧
      (marks.discover id).lowOf w ≤ (marks.discover id).indexOf b := by
  have aMet : a ∈ marks.index := h.met a fromStack
  have bMet : b ∈ marks.index := h.followed a aMet b leads followed
  have vMet : v ∈ marks.index := h.onPath_met onPath
  rw [Stacked.discover_indexOf new aMet, Stacked.discover_indexOf new vMet] at up
  rw [Stacked.discover_indexOf new bMet, Stacked.discover_indexOf new vMet]
  have toStack : b ∈ marks.stack :=
    (List.mem_cons.mp toStack).resolve_left fun same => new (same ▸ bMet)
  obtain ⟨w, wOnPath, above, bounds⟩ := h.lowest a fromStack b toStack leads followed v onPath up
  refine ⟨w, wOnPath, ?_, ?_⟩
  · rw [Stacked.discover_indexOf new (h.onPath_met wOnPath)]
    exact above
  · rw [Stacked.discover_lowOf new (h.onPath_met wOnPath)]
    exact bounds

/-- Meeting an id that the path leads to puts it on the path. -/
theorem discover (h : Consistent links marks path waits) (new : id ∉ marks.index)
    (fromPath : ∀ v ∈ path, links.Reaches v id) :
    Consistent links (marks.discover id) (id :: path)
      fun a b => waits a b ∨ a = id ∧ LeadsTo links.next a b := by
  have index {a : String} (known : a ∈ marks.index) :
      (marks.discover id).indexOf a = marks.indexOf a := Stacked.discover_indexOf new known
  constructor
  case toStacked => exact h.toStacked.discover new
  case waiting =>
    rintro a b (waits | ⟨rfl, leads⟩)
    · exact ⟨List.mem_cons_of_mem id (h.waiting a b waits).1, (h.waiting a b waits).2⟩
    · exact ⟨List.mem_cons_self, leads⟩
  case followed =>
    intro a met b leads done
    rcases Marks.mem_discover_index.mp met with rfl | known
    · exact absurd (.inr ⟨rfl, leads⟩) done
    · refine Marks.mem_discover_index.mpr (.inr (h.followed a known b leads fun waits => ?_))
      exact done (.inl waits)
  case after =>
    intro v onPath a met up
    rcases Marks.mem_discover_index.mp met with rfl | known
    · rcases List.mem_cons.mp onPath with rfl | before
      · exact .refl
      · exact fromPath v before
    · rcases List.mem_cons.mp onPath with rfl | before
      · exact absurd (h.discover_lt new known) (Nat.not_lt.mpr up)
      · rw [index known, index (h.onPath_met before)] at up
        exact h.after v before a known up
  case back =>
    intro a onStack
    rcases List.mem_cons.mp onStack with rfl | before
    · exact ⟨a, List.mem_cons_self, Nat.le_refl _, .refl⟩
    · obtain ⟨v, onPath, down, reaches⟩ := h.back a before
      refine ⟨v, List.mem_cons_of_mem id onPath, ?_, reaches⟩
      rw [index (h.met a before), index (h.onPath_met onPath)]
      exact down
  case closed =>
    intro a met off b leads
    obtain ⟨known, left⟩ := (Stacked.discover_off new).mp ⟨met, off⟩
    exact (Stacked.discover_off new).mpr (h.closed a known left b leads)
  case inCycle =>
    exact fun a => (h.inCycle a).trans (and_congr_left' (Stacked.discover_off new).symm)
  case found =>
    intro v onPath
    rcases List.mem_cons.mp onPath with rfl | before
    · rw [Marks.discover_lowOf_self, Marks.discover_indexOf_self]
      exact ⟨Nat.le_refl _, v, List.mem_cons_self, Marks.discover_indexOf_self, .refl⟩
    · obtain ⟨le, a, onStack, number, reaches⟩ := h.found v before
      rw [index (h.onPath_met before), Stacked.discover_lowOf new (h.onPath_met before)]
      refine ⟨le, a, List.mem_cons_of_mem id onStack, ?_, reaches⟩
      rw [index (h.met a onStack), number]
  case lowest =>
    intro a fromStack b toStack leads done v onPath up
    rcases List.mem_cons.mp fromStack with rfl | below
    · exact absurd (.inr ⟨rfl, leads⟩) done
    rcases List.mem_cons.mp onPath with rfl | before
    · exact absurd (h.discover_lt new (h.met a below)) (Nat.not_lt.mpr up)
    · obtain ⟨w, wOnPath, bounds⟩ :=
        h.discover_lowest new below toStack leads (fun waits => done (.inl waits)) before up
      exact ⟨w, List.mem_cons_of_mem id wOnPath, bounds⟩

/-- A number that was found from an id on the path may be noted. -/
theorem lower (h : Consistent links marks path waits) (onStack : a ∈ marks.stack)
    (reaches : id ∈ path → links.Reaches id a) :
    Consistent links (marks.lower id (marks.indexOf a)) path waits := by
  refine { h with found := ?_, lowest := ?_ }
  · intro v onPath
    obtain ⟨le, c, cOnStack, number, leads⟩ := h.found v onPath
    refine ⟨Nat.le_trans (Marks.lower_lowOf_le _) le, ?_⟩
    by_cases same : v = id
    · subst same
      rw [Marks.lower_lowOf_self]
      rcases Nat.le_total (marks.lowOf v) (marks.indexOf a) with before | after
      · rw [Nat.min_eq_left before]
        exact ⟨c, cOnStack, number, leads⟩
      · rw [Nat.min_eq_right after]
        exact ⟨a, onStack, rfl, reaches onPath⟩
    · rw [Marks.lower_lowOf_of_ne _ same]
      exact ⟨c, cOnStack, number, leads⟩
  · intro a fromStack b toStack leads done v onPath up
    obtain ⟨w, wOnPath, above, bounds⟩ := h.lowest a fromStack b toStack leads done v onPath up
    exact ⟨w, wOnPath, above, Nat.le_trans (Marks.lower_lowOf_le _) bounds⟩

/-- A step to an id that was met is done once it is bounded by what was found. -/
theorem follow (h : Consistent links marks path waits) (known : b ∈ marks.index)
    (fewer : ∀ c d, waits' c d → waits c d)
    (only : ∀ c d, waits c d → ¬ waits' c d → c = a ∧ d = b)
    (bounded : b ∈ marks.stack → ∀ v ∈ path, marks.indexOf v ≤ marks.indexOf a →
      ∃ w ∈ path, marks.indexOf v ≤ marks.indexOf w ∧ marks.lowOf w ≤ marks.indexOf b) :
    Consistent links marks path waits' := by
  refine { h with waiting := fun c d waits => h.waiting c d (fewer c d waits), followed := ?_,
                  lowest := ?_ }
  · intro c met d leads done
    by_cases waited : waits c d
    · obtain ⟨rfl, rfl⟩ := only c d waited done
      exact known
    · exact h.followed c met d leads waited
  · intro c fromStack d toStack leads done v onPath up
    by_cases waited : waits c d
    · obtain ⟨rfl, rfl⟩ := only c d waited done
      exact bounded toStack v onPath up
    · exact h.lowest c fromStack d toStack leads waited v onPath up

/-- Where nothing waits at the last id of the path, all that waits does so at those before it. -/
theorem waiting_below (h : Consistent links marks (id :: path) waits) (done : ∀ b, ¬ waits id b)
    (waiting : waits a b) : a ∈ path ∧ LeadsTo links.next a b := by
  obtain ⟨member, leads⟩ := h.waiting a b waiting
  rcases List.mem_cons.mp member with rfl | below
  · exact absurd waiting (done b)
  · exact ⟨below, leads⟩

/-- An id that led below its own number may leave the path once the path has what it found. -/
theorem leave (h : Consistent links marks (id :: path) waits) (done : ∀ b, ¬ waits id b)
    (lowered : marks.lowOf id < marks.indexOf id)
    (passed : ∀ v ∈ path, ∃ w ∈ path, marks.indexOf v ≤ marks.indexOf w ∧
      marks.lowOf w ≤ marks.lowOf id) :
    Consistent links marks path waits := by
  have onPath {v : String} (below : v ∈ path) : v ∈ id :: path := List.mem_cons_of_mem id below
  refine { h with toStacked := h.tail
                  waiting := fun a b waits => h.waiting_below done waits
                  after := fun v below => h.after v (onPath below)
                  back := ?_
                  found := fun v below => h.found v (onPath below)
                  lowest := ?_ }
  · intro a onStack
    obtain ⟨v, member, down, reaches⟩ := h.back a onStack
    rcases List.mem_cons.mp member with rfl | below
    · -- The id leads below its own number, and from there back to an id that stays.
      obtain ⟨-, c, cOnStack, number, onward⟩ := h.found v member
      obtain ⟨u, member', down', reaches'⟩ := h.back c cOnStack
      rcases List.mem_cons.mp member' with rfl | below
      · omega
      · exact ⟨u, below, by omega, (reaches.trans onward).trans reaches'⟩
    · exact ⟨v, below, down, reaches⟩
  · intro a fromStack b toStack leads followed v below up
    obtain ⟨w, member, above, bounds⟩ := h.lowest a fromStack b toStack leads followed v
      (onPath below) up
    rcases List.mem_cons.mp member with rfl | wBelow
    · obtain ⟨w', below', above', passed⟩ := passed v below
      exact ⟨w', below', above', Nat.le_trans passed bounds⟩
    · exact ⟨w, wBelow, above, bounds⟩

/-! ## §5 Components -/

section Component

variable (h : Consistent links marks (id :: path) waits) (done : ∀ b, ¬ waits id b)
  (first : marks.lowOf id = marks.indexOf id)

include h done first

/-- From the part of the stack above such an id a step stays there or leads to what is closed. -/
theorem inside_of_leadsTo (inside : a ∈ marks.stack ∧ marks.indexOf id ≤ marks.indexOf a)
    (leads : LeadsTo links.next a b) :
    (b ∈ marks.stack ∧ marks.indexOf id ≤ marks.indexOf b) ∨
      (b ∈ marks.index ∧ b ∉ marks.stack) := by
  have followed : ¬ waits a b := by
    intro waits
    rcases List.mem_cons.mp (h.waiting a b waits).1 with rfl | below
    · exact done b waits
    · exact absurd (h.lt_of_onPath below) (Nat.not_lt.mpr inside.2)
  have met := h.followed a (h.met a inside.1) b leads followed
  by_cases onStack : b ∈ marks.stack
  · obtain ⟨w, member, above, bounds⟩ :=
      h.lowest a inside.1 b onStack leads followed id List.mem_cons_self inside.2
    rcases List.mem_cons.mp member with rfl | below
    · exact .inl ⟨onStack, first ▸ bounds⟩
    · exact absurd (h.lt_of_onPath below) (Nat.not_lt.mpr above)
  · exact .inr ⟨met, onStack⟩

theorem inside_of_reaches (inside : a ∈ marks.stack ∧ marks.indexOf id ≤ marks.indexOf a)
    (reaches : links.Reaches a b) :
    (b ∈ marks.stack ∧ marks.indexOf id ≤ marks.indexOf b) ∨
      (b ∈ marks.index ∧ b ∉ marks.stack) := by
  induction reaches with
  | refl => exact .inl inside
  | tail _ step ih =>
    rcases ih with stays | closed
    · exact h.inside_of_leadsTo done first stays step
    · exact .inr (h.closed _ closed.1 closed.2 _ step)

/-- Everything in this part leads back to the id. -/
theorem reaches_first (inside : a ∈ marks.stack ∧ marks.indexOf id ≤ marks.indexOf a) :
    links.Reaches a id := by
  obtain ⟨v, member, down, reaches⟩ := h.back a inside.1
  rcases List.mem_cons.mp member with rfl | below
  · exact reaches
  · rcases h.inside_of_reaches done first inside reaches with stays | closed
    · exact absurd (h.lt_of_onPath below) (Nat.not_lt.mpr stays.2)
    · exact absurd (h.onPath v member) closed.2

/-- A way from the id back to it stays in this part. -/
theorem inside_of_return (reaches : links.Reaches b id) (leads : LeadsTo links.next id b) :
    b ∈ marks.stack ∧ marks.indexOf id ≤ marks.indexOf b := by
  have onStack : id ∈ marks.stack := h.onPath id List.mem_cons_self
  rcases h.inside_of_leadsTo done first ⟨onStack, Nat.le_refl _⟩ leads with stays | closed
  · exact stays
  · exact absurd onStack (h.closed_of_reaches closed reaches).2

/-- **This part holds a cycle if it has several ids or its only one refers to itself**, and then
each of its ids lies on one. -/
theorem returns_iff {above below : List String} (split : marks.stack = above ++ id :: below)
    (component : ∀ a, a ∈ above ++ [id] ↔ a ∈ marks.stack ∧ marks.indexOf id ≤ marks.indexOf a)
    (inside : a ∈ above ++ [id]) :
    links.Returns a ↔ (above ++ [id]).length > 1 ∨ id ∈ links.next id := by
  have toFirst (b : String) (member : b ∈ above ++ [id]) : links.Reaches b id :=
    h.reaches_first done first ((component b).mp member)
  have fromFirst (b : String) (member : b ∈ above ++ [id]) : links.Reaches id b := by
    obtain ⟨onStack, up⟩ := (component b).mp member
    exact h.after id List.mem_cons_self b (h.met b onStack) up
  constructor
  · intro returns
    cases above with
    | cons top above => exact .inl (by simp)
    | nil =>
      obtain rfl : a = id := by simpa using inside
      obtain ⟨b, leads, reaches⟩ := Relation.TransGen.head'_iff.mp returns
      have same : b = a := by
        simpa using (component b).mpr (h.inside_of_return done first reaches leads)
      exact .inr (same ▸ leads)
  · intro cyclic
    have returns : links.Returns id := by
      rcases cyclic with several | itself
      · cases above with
        | nil => simp at several
        | cons top above =>
          have member : top ∈ top :: above ++ [id] := List.mem_cons_self
          have distinct : top ≠ id := by
            rintro rfl
            have falls := h.falling
            rw [split] at falls
            exact absurd ((List.pairwise_cons.mp falls).1 top (by simp)) (Nat.lt_irrefl _)
          obtain same | onward := Relation.reflTransGen_iff_eq_or_transGen.mp (toFirst top member)
          · exact absurd same.symm distinct
          · exact onward.trans_right (fromFirst top member)
      · exact .single itself
    exact (returns.trans_left (fromFirst a inside)).trans_right (toFirst a inside)

/-- The ids of a component are noted when it is closed if they lie on a cycle. -/
theorem mem_close_inCycle :
    a ∈ (marks.close id ((links.next id).contains id)).inCycle ↔ a ∈ marks.inCycle ∨
      (a ∈ marks.stack ∧ marks.indexOf id ≤ marks.indexOf a) ∧ links.Returns a := by
  obtain ⟨above, below, split, popped, component, -⟩ := h.exists_popped
  rw [Marks.mem_close_inCycle popped, List.contains_iff_mem, ← component]
  refine or_congr_right (and_congr_right fun inside => ?_)
  exact (h.returns_iff done first split component inside).symm

/-- Closing the component that starts with the id keeps what holds. -/
theorem close : Consistent links (marks.close id ((links.next id).contains id)) path waits := by
  have onPath {v : String} (member : v ∈ path) : v ∈ id :: path := List.mem_cons_of_mem id member
  constructor
  case toStacked => exact h.toStacked.close
  case waiting => exact fun a b waits => h.waiting_below done waits
  case followed => exact h.followed
  case after => exact fun v member => h.after v (onPath member)
  case back =>
    intro a member
    obtain ⟨onStack, down⟩ := h.mem_close_stack.mp member
    obtain ⟨v, member, down', reaches⟩ := h.back a onStack
    rcases List.mem_cons.mp member with rfl | below
    · exact absurd down (Nat.not_lt.mpr down')
    · exact ⟨v, below, down', reaches⟩
  case closed =>
    intro a met out b leads
    rw [h.not_mem_close_stack]
    rcases h.not_mem_close_stack.mp out with off | inside
    · obtain ⟨met', off'⟩ := h.closed a met off b leads
      exact ⟨met', .inl off'⟩
    · rcases h.inside_of_leadsTo done first inside leads with stays | ⟨met', off'⟩
      · exact ⟨h.met b stays.1, .inr stays⟩
      · exact ⟨met', .inl off'⟩
  case inCycle =>
    intro a
    rw [h.mem_close_inCycle done first, h.inCycle, h.not_mem_close_stack, ← or_and_right]
    refine and_congr_left fun _ => ?_
    constructor
    · rintro (⟨met, off⟩ | inside)
      · exact ⟨met, .inl off⟩
      · exact ⟨h.met a inside.1, .inr inside⟩
    · rintro ⟨met, off | inside⟩
      · exact .inl ⟨met, off⟩
      · exact .inr inside
  case found =>
    intro v member
    obtain ⟨le, a, onStack, number, reaches⟩ := h.found v (onPath member)
    have down : marks.indexOf a < marks.indexOf id := by
      rw [number]
      exact Nat.lt_of_le_of_lt le (h.lt_of_onPath member)
    exact ⟨le, a, h.mem_close_stack.mpr ⟨onStack, down⟩, number, reaches⟩
  case lowest =>
    intro a fromStack b toStack leads followed v member up
    obtain ⟨fromStack, -⟩ := h.mem_close_stack.mp fromStack
    obtain ⟨toStack, down⟩ := h.mem_close_stack.mp toStack
    obtain ⟨w, member, above, bounds⟩ := h.lowest a fromStack b toStack leads followed v
      (onPath member) up
    rcases List.mem_cons.mp member with rfl | below
    · rw [first] at bounds
      exact absurd down (Nat.not_lt.mpr bounds)
    · exact ⟨w, below, above, bounds⟩

end Component

end Consistent

/-! ## §6 Search -/

/-- The visit of `a` has still to follow the step to `b`. -/
def Waits (work : List (Visit links)) (a b : String) : Prop :=
  ∃ v ∈ work, v.id = a ∧ b ∈ v.pending

theorem waits_cons {visit : Visit links} {work : List (Visit links)} :
    Waits (visit :: work) a b ↔ visit.id = a ∧ b ∈ visit.pending ∨ Waits work a b := by
  simp only [Waits, List.exists_mem_cons_iff]

section Step

variable {work : List (Visit links)} {pending : List String}
  {inside : ∀ a ∈ other :: pending, a ∈ links.targets}

theorem waits_of_followed
    (h : Waits (⟨id, pending, (List.forall_mem_cons.mp inside).2⟩ :: work) a b) :
    Waits (⟨id, other :: pending, inside⟩ :: work) a b := by
  rw [waits_cons] at h ⊢
  exact h.imp_left (And.imp_right (List.mem_cons_of_mem other))

/-- Following a step takes only that one away. -/
theorem eq_of_followed (waits : Waits (⟨id, other :: pending, inside⟩ :: work) a b)
    (followed : ¬ Waits (⟨id, pending, (List.forall_mem_cons.mp inside).2⟩ :: work) a b) :
    a = id ∧ b = other := by
  rw [waits_cons, not_or] at followed
  rcases waits_cons.mp waits with ⟨same, pending⟩ | below
  · refine ⟨same.symm, ?_⟩
    exact (List.mem_cons.mp pending).resolve_right fun later => followed.1 ⟨same, later⟩
  · exact absurd below followed.2

end Step

/-- What holds of the marks while this work is left. -/
def Ongoing (links : Links) (marks : Marks) (work : List (Visit links)) : Prop :=
  Consistent links marks (work.map (·.id)) (Waits work)

/-- At first nothing is noted. -/
theorem ongoing_start (links : Links) : Ongoing links {} [] := by
  have stacked : Stacked {} [] := by constructor <;> simp
  constructor
  case toStacked => exact stacked
  all_goals simp [Waits]

/-- The visit before gets to know what was found from the last one. -/
theorem passOn_consistent {work : List (Visit links)}
    (h : Consistent links marks (id :: work.map (·.id)) waits) :
    Consistent links (passOn marks id work) (id :: work.map (·.id)) waits ∧
      ∀ v ∈ work.map (·.id), ∃ w ∈ work.map (·.id),
        (passOn marks id work).indexOf v ≤ (passOn marks id work).indexOf w ∧
          (passOn marks id work).lowOf w ≤ (passOn marks id work).lowOf id := by
  cases work with
  | nil => exact ⟨h, fun v none => by cases none⟩
  | cons parent work =>
    have before : marks.indexOf parent.id < marks.indexOf id := h.lt_of_onPath List.mem_cons_self
    have distinct : id ≠ parent.id := fun same => by
      rw [← same] at before
      exact Nat.lt_irrefl _ before
    obtain ⟨-, a, onStack, number, reaches⟩ := h.found id List.mem_cons_self
    have toFirst : links.Reaches parent.id id :=
      h.after parent.id (by simp) id (h.onPath_met List.mem_cons_self) (Nat.le_of_lt before)
    rw [passOn, ← number]
    refine ⟨h.lower onStack fun _ => toFirst.trans reaches, fun v member => ?_⟩
    refine ⟨parent.id, List.mem_cons_self, ?_, ?_⟩
    · rcases List.mem_cons.mp member with rfl | below
      · exact Nat.le_refl _
      · exact Nat.le_of_lt ((List.pairwise_cons.mp (List.pairwise_cons.mp h.order).2).1 v below)
    · rw [Marks.lower_lowOf_self, Marks.lower_lowOf_of_ne _ distinct, number]
      exact Nat.min_le_right _ _

/-- A visit that has nothing left to follow ends. -/
theorem Ongoing.leave {work : List (Visit links)} {inside : ∀ other ∈ [], other ∈ links.targets}
    (h : Ongoing links marks (⟨id, [], inside⟩ :: work)) :
    Ongoing links (complete links (passOn marks id work) id) work := by
  have waits_eq : Waits (⟨id, [], inside⟩ :: work) = Waits work := by
    funext a b
    simp [waits_cons]
  rw [Ongoing, waits_eq, List.map_cons] at h
  obtain ⟨h, passed⟩ := passOn_consistent h
  have done : ∀ b, ¬ Waits work id b := by
    rintro b ⟨v, member, same, -⟩
    have onPath : id ∈ work.map (·.id) := List.mem_map.mpr ⟨v, member, same⟩
    exact Nat.lt_irrefl _ (h.lt_of_onPath onPath)
  rw [complete]
  split
  · next first => exact h.close done first
  · next lowered =>
    have le := (h.found id List.mem_cons_self).1
    exact h.leave done (Nat.lt_of_le_of_ne le lowered) passed

section Follow

variable {work : List (Visit links)} {pending : List String}
  {inside : ∀ a ∈ other :: pending, a ∈ links.targets}
  (h : Ongoing links marks (⟨id, other :: pending, inside⟩ :: work))

include h

theorem Ongoing.leadsTo : LeadsTo links.next id other :=
  (h.waiting id other (waits_cons.mpr (.inl ⟨rfl, List.mem_cons_self⟩))).2

/-- A step to an id that was met is followed. -/
theorem Ongoing.meetAgain (known : other ∈ marks.index) :
    Ongoing links (marks.meetAgain id other)
      (⟨id, pending, (List.forall_mem_cons.mp inside).2⟩ :: work) := by
  rw [Marks.meetAgain]
  split
  · next onStack =>
    have lowered := h.lower ((h.onStack other).mp onStack) fun _ => .single h.leadsTo
    refine lowered.follow known (fun _ _ => waits_of_followed) (fun _ _ => eq_of_followed)
      fun _ v _ up => ⟨id, List.mem_cons_self, up, ?_⟩
    rw [Marks.lower_lowOf_self]
    exact Nat.min_le_right _ _
  · next off =>
    exact h.follow known (fun _ _ => waits_of_followed) (fun _ _ => eq_of_followed)
      fun onStack => absurd ((h.onStack other).mpr onStack) off

/-- A step to a new id is followed, and the id is visited. -/
theorem Ongoing.discover (new : other ∉ marks.index) :
    Ongoing links (marks.discover other)
      (links.visit other :: ⟨id, pending, (List.forall_mem_cons.mp inside).2⟩ :: work) := by
  have fromPath : ∀ v ∈ id :: work.map (·.id), links.Reaches v other := by
    intro v onPath
    have toLast : links.Reaches v id := by
      refine h.after v onPath id (h.onPath_met List.mem_cons_self) ?_
      rcases List.mem_cons.mp onPath with rfl | below
      · exact Nat.le_refl _
      · exact Nat.le_of_lt (h.lt_of_onPath below)
    exact toLast.tail h.leadsTo
  have discovered := Consistent.discover h new fromPath
  refine discovered.follow (a := id) (b := other) (Marks.mem_discover_index.mpr (.inl rfl)) ?_ ?_ ?_
  · intro c d waits
    rcases waits_cons.mp waits with ⟨rfl, leads⟩ | later
    · exact .inr ⟨rfl, leads⟩
    · exact .inl (waits_of_followed later)
  · rintro c d (waits | ⟨rfl, leads⟩) followed
    · exact eq_of_followed waits fun later => followed (waits_cons.mpr (.inr later))
    · exact absurd (waits_cons.mpr (.inl ⟨rfl, leads⟩)) followed
  · intro _ v _ up
    have last := discovered.lt_of_onPath (a := id) List.mem_cons_self
    exact ⟨other, List.mem_cons_self, Nat.le_of_lt (Nat.lt_of_le_of_lt up last),
      (discovered.found other List.mem_cons_self).1⟩

end Follow

/-- Each step keeps what holds, so the whole search does. -/
theorem ongoing_explore {work : List (Visit links)} (h : Ongoing links marks work) :
    Ongoing links (explore links marks work) [] := by
  fun_induction explore links marks work with
  | case1 marks => exact h
  | case2 marks id inside work ih => exact ih h.leave
  | case3 marks id other pending inside work known ih => exact ih (h.meetAgain known)
  | case4 marks id other pending inside work new ih => exact ih (h.discover new)

theorem ongoing_exploreFrom (h : Ongoing links marks []) (root : String) :
    Ongoing links (exploreFrom links marks root) [] := by
  rw [exploreFrom]
  split
  · exact h
  · next new =>
    refine ongoing_explore ?_
    have waits_eq : Waits [links.visit root] =
        fun a b => Waits ([] : List (Visit links)) a b ∨ a = root ∧ LeadsTo links.next a b := by
      funext a b
      rw [waits_cons, or_comm]
      refine propext (or_congr_right ⟨?_, ?_⟩)
      · rintro ⟨rfl, leads⟩
        exact ⟨rfl, leads⟩
      · rintro ⟨rfl, leads⟩
        exact ⟨rfl, leads⟩
    rw [Ongoing, waits_eq]
    exact Consistent.discover h new fun v none => by cases none

theorem ongoing_search (roots : List String) (h : Ongoing links marks []) :
    Ongoing links (roots.foldl (exploreFrom links) marks) [] := by
  induction roots generalizing marks with
  | nil => exact h
  | cons root roots ih => exact ih (ongoing_exploreFrom h root)

/-- **When the search ends, the ids noted are those met that lead back to themselves.** -/
theorem Ongoing.mem_inCycle (h : Ongoing links marks []) :
    a ∈ marks.inCycle ↔ a ∈ marks.index ∧ links.Returns a := by
  rw [h.inCycle, Consistent.stack_eq_nil h]
  simp

end BusinessCase.DependencyMap
