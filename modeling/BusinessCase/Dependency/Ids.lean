/-
BusinessCase.Dependency.Ids — lists of ids as sets, and in order.

Ids are compared by code points. `sortedIds` lists a set in increasing order
without repetition, so what it gives depends on the members alone.
-/
import BusinessCase.Text.Surrogate

namespace BusinessCase

def sortIds (ids : List String) : List String := ids.mergeSort Text.precedes

/-- Drops every id that stands next to an equal one. -/
def dropRepeats : List String → List String
  | [] => []
  | [a] => [a]
  | a :: b :: rest => if a = b then dropRepeats (b :: rest) else a :: dropRepeats (b :: rest)

/-- The members of a set of ids in increasing order, each once. -/
def sortedIds (ids : List String) : List String := dropRepeats (sortIds ids)

theorem mem_dropRepeats {id : String} : ∀ ids : List String, id ∈ dropRepeats ids ↔ id ∈ ids
  | [] => by simp [dropRepeats]
  | [a] => by simp [dropRepeats]
  | a :: b :: rest => by
    have ih : id ∈ dropRepeats (b :: rest) ↔ id ∈ b :: rest := mem_dropRepeats (b :: rest)
    rw [dropRepeats]
    split
    · next same => subst same; simp [ih]
    · simp [ih]

theorem mem_sortedIds {id : String} {ids : List String} : id ∈ sortedIds ids ↔ id ∈ ids := by
  rw [sortedIds, mem_dropRepeats, sortIds, List.mem_mergeSort]

/-- The ids in order of first appearance, each once. -/
def firstAppearances (ids : List String) : List String :=
  (ids.foldl (fun seen id => if seen.contains id then seen else id :: seen) []).reverse

end BusinessCase
