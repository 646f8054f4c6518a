/-
BusinessCase.Dependency.Components — which ids lie on cycles of references.

A depth-first search over explicit work, so that a long chain of references
needs no room. It numbers the ids as it meets them and keeps a stack of those
whose component is still open. What an id leads back to is followed by the
lowest number seen; an id from which the search never gets below its own number
closes a component, and the component holds a cycle if it has several ids or
its only id refers to itself.

  §1 Marks  — `Marks`: what is noted of each id, and the notes it can make.
  §2 Search — `explore` from one id, `exploreFrom` from the next listed one.
  §3 Cycles — `cycles`.
-/
import BusinessCase.Dependency.Graph
import Std.Data.HashSet

namespace BusinessCase.DependencyMap

/-! ## §1 Marks -/

/-- What the search has noted so far. -/
structure Marks where
  /-- The numbers of the ids that it has met. -/
  index : Std.HashMap String Nat := ∅
  /-- The lowest number that it has found from an id. -/
  low : Std.HashMap String Nat := ∅
  /-- The ids whose component is open, the last one met first. -/
  stack : List String := []
  /-- The same ids as a set. -/
  onStack : Std.HashSet String := ∅
  /-- The ids of the components that are closed and hold a cycle. -/
  inCycle : Std.HashSet String := ∅

/-- The stack in two parts, down to the id and below it. -/
def popThrough (id : String) : List String → List String × List String
  | [] => ([], [])
  | top :: rest =>
    if top = id then ([top], rest)
    else ((top :: (popThrough id rest).1), (popThrough id rest).2)

namespace Marks

def indexOf (marks : Marks) (id : String) : Nat := marks.index.getD id 0

def lowOf (marks : Marks) (id : String) : Nat := marks.low.getD id 0

/-- Numbers an id and opens a component with it. -/
def discover (marks : Marks) (id : String) : Marks :=
  { marks with
    index := marks.index.insert id marks.index.size
    low := marks.low.insert id marks.index.size
    stack := id :: marks.stack
    onStack := marks.onStack.insert id }

/-- A number was found from the id. -/
def lower (marks : Marks) (id : String) (number : Nat) : Marks :=
  { marks with low := marks.low.insert id (min (marks.lowOf id) number) }

/-- An id that the id refers to was met before; it counts while its component is open. -/
def meetAgain (marks : Marks) (id other : String) : Marks :=
  if other ∈ marks.onStack then marks.lower id (marks.indexOf other) else marks

/-- Closes the component that starts with the id. -/
def close (marks : Marks) (id : String) (refersToItself : Bool) : Marks :=
  let (component, rest) := popThrough id marks.stack
  { marks with
    stack := rest
    onStack := component.foldl (·.erase ·) marks.onStack
    inCycle :=
      if component.length > 1 || refersToItself then marks.inCycle.insertMany component
      else marks.inCycle }

end Marks

/-! ## §2 Search -/

/-- An id on the way from the start of a search, with what it refers to and was not followed yet. -/
structure Visit (links : Links) where
  id : String
  pending : List String
  inside : ∀ other ∈ pending, other ∈ links.targets

/-- A visit that has followed nothing yet. -/
def Links.visit (links : Links) (id : String) : Visit links :=
  { id := id, pending := links.next id, inside := links.inside id }

/-- The visit before, if there is one, has found what was found from the id. -/
def passOn {links : Links} (marks : Marks) (id : String) : List (Visit links) → Marks
  | [] => marks
  | parent :: _ => marks.lower parent.id (marks.lowOf id)

/-- Closes a component if nothing below its own number was found from the id. -/
def complete (links : Links) (marks : Marks) (id : String) : Marks :=
  if marks.lowOf id = marks.indexOf id then marks.close id ((links.next id).contains id) else marks

/-- The ids that could still be met. -/
def unmet (links : Links) (marks : Marks) : Nat :=
  links.targets.countP fun id => !marks.index.contains id

/-- Meeting an id that could still be met leaves fewer of them. -/
theorem unmet_discover_lt {links : Links} {marks : Marks} {id : String}
    (target : id ∈ links.targets) (new : id ∉ marks.index) :
    unmet links (marks.discover id) < unmet links marks := by
  obtain ⟨before, after, split⟩ := List.append_of_mem target
  have fewer (ids : List String) :
      ids.countP (fun other => !(marks.discover id).index.contains other) ≤
        ids.countP fun other => !marks.index.contains other := by
    refine List.countP_mono_left fun other _ => ?_
    simp [Marks.discover, Std.HashMap.contains_insert]
  have gone : (!(marks.discover id).index.contains id) = false := by simp [Marks.discover]
  have there : (!marks.index.contains id) = true := by simpa using new
  have left := fewer before
  have right := fewer after
  simp only [unmet, split, List.countP_append, List.countP_cons, gone, there, if_true,
    Bool.false_eq_true, if_false]
  omega

theorem unmet_congr {links : Links} {marks marks' : Marks} (same : marks'.index = marks.index) :
    unmet links marks' = unmet links marks := by
  rw [unmet, same, unmet]

theorem meetAgain_index (marks : Marks) (id other : String) :
    (marks.meetAgain id other).index = marks.index := by
  unfold Marks.meetAgain
  split <;> rfl

/-- Ending a visit meets nothing. -/
theorem complete_passOn_index {links : Links} (marks : Marks) (id : String)
    (work : List (Visit links)) :
    (complete links (passOn marks id work) id).index = marks.index := by
  have passed : (passOn marks id work).index = marks.index := by cases work <;> rfl
  unfold complete
  split
  · exact passed
  · exact passed

/-- How many references are left to follow, and visits to end. -/
def effort {links : Links} : List (Visit links) → Nat
  | [] => 0
  | visit :: work => visit.pending.length + 1 + effort work

theorem effort_lt_cons {links : Links} (visit : Visit links) (work : List (Visit links)) :
    effort work < effort (visit :: work) := by
  rw [effort]
  omega

theorem effort_lt_pending {links : Links} {id other : String} {pending : List String}
    (inside : ∀ a ∈ other :: pending, a ∈ links.targets) (work : List (Visit links)) :
    effort (⟨id, pending, (List.forall_mem_cons.mp inside).2⟩ :: work) <
      effort (⟨id, other :: pending, inside⟩ :: work) := by
  simp only [effort, List.length_cons]
  omega

/-- Follows the visits, the last one first, until none is left. -/
def explore (links : Links) (marks : Marks) : List (Visit links) → Marks
  | [] => marks
  | ⟨id, [], _⟩ :: work => explore links (complete links (passOn marks id work) id) work
  | ⟨id, other :: pending, inside⟩ :: work =>
    if other ∈ marks.index then
      explore links (marks.meetAgain id other)
        (⟨id, pending, (List.forall_mem_cons.mp inside).2⟩ :: work)
    else
      explore links (marks.discover other)
        (links.visit other :: ⟨id, pending, (List.forall_mem_cons.mp inside).2⟩ :: work)
termination_by work => (unmet links marks, effort work)
decreasing_by
  · exact .right' _ (Nat.le_of_eq (unmet_congr (complete_passOn_index marks id work)))
      (effort_lt_cons _ work)
  · exact .right' _ (Nat.le_of_eq (unmet_congr (meetAgain_index marks id other)))
      (effort_lt_pending _ work)
  · exact .left _ _ (unmet_discover_lt (inside other List.mem_cons_self) ‹_›)

/-- Searches from a listed id that was not met yet. -/
def exploreFrom (links : Links) (marks : Marks) (root : String) : Marks :=
  if root ∈ marks.index then marks else explore links (marks.discover root) [links.visit root]

/-! ## §3 Cycles -/

/-- The ids that lie on a cycle of references, a reference to itself included, in the order in
which the search meets them. -/
def cycles (map : DependencyMap) : List String :=
  let links := map.links
  let marks := map.keys.foldl (exploreFrom links) {}
  marks.inCycle.toList.mergeSort fun a b => marks.indexOf a ≤ marks.indexOf b

end BusinessCase.DependencyMap
