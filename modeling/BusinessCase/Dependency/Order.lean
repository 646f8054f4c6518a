/-
BusinessCase.Dependency.Order — an order in which every id comes after all that
it refers to.

Of each id it is counted how many of its references wait. Ids without any stand
in a queue; an id that is taken from it makes one reference less wait in every
id that refers to it, and those that wait for nothing any more join the queue.
-/
import BusinessCase.Dependency.Graph

namespace BusinessCase.DependencyMap

/-- How many references of each id wait. -/
abbrev Waiting := Std.HashMap String Nat

/-- At first all references wait. -/
def waiting (map : DependencyMap) : Waiting :=
  map.foldl (fun waiting entry => waiting.insert entry.1 (sortedIds entry.2).length) ∅

/-- One more id refers to each of these. -/
def addDependent (dependents : Std.HashMap String (List String)) (id : String)
    (references : List String) : Std.HashMap String (List String) :=
  references.foldl
    (fun dependents other => dependents.insert other (dependents.getD other [] ++ [id])) dependents

/-- The ids that refer to an id, in the order in which they are listed. -/
def dependents (map : DependencyMap) : Std.HashMap String (List String) :=
  map.foldl (fun dependents entry => addDependent dependents entry.1 (sortedIds entry.2)) ∅

/-- One reference less waits in each of these ids. The second part are those that then wait for
nothing. -/
def release (waiting : Waiting) : List String → Waiting × List String
  | [] => (waiting, [])
  | id :: rest =>
    let left := waiting.getD id 0 - 1
    let (after, free) := release (waiting.insert id left) rest
    (after, if left = 0 then id :: free else free)

/-- Takes the ids of the queue one by one, putting at its end those that become free. -/
def orderFrom (dependents : String → List String) :
    (rounds : Nat) → (waiting : Waiting) → (queue : List String) → List String
  | 0, _, _ => []
  | _, _, [] => []
  | rounds + 1, waiting, id :: queue =>
    let (waiting, free) := release waiting (dependents id)
    id :: orderFrom dependents rounds waiting (queue ++ free)

/-- An order in which every id comes after all ids it refers to. What lies on a cycle, or depends on
one, never becomes free and is left out. Each id is taken at most once, so as many rounds as there
are ids are enough. -/
def order (map : DependencyMap) : List String :=
  let ids := map.ids
  let waiting := map.waiting
  let dependents := map.dependents
  orderFrom (dependents.getD · []) ids.length waiting (ids.filter (waiting.getD · 0 == 0))

end BusinessCase.DependencyMap
