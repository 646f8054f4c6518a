/-
BusinessCase.Dependency.Graph — which formula needs which id.

A dependency map lists ids with the ids they refer to directly. An id that is
referred to without being listed has no dependencies of its own.

  §1 Map    — `DependencyMap`, look-up, all ids.
  §2 Source — the map of a set of formulas.
  §3 Links  — `links`, the map as a search uses it.
-/
import BusinessCase.Dependency.Ids
import BusinessCase.Formula.Expr
import Std.Data.HashMap

namespace BusinessCase

/-! ## §1 Map -/

/-- Ids, each listed once, with the set of ids that each refers to. -/
abbrev DependencyMap := List (String × List String)

namespace DependencyMap

def dependencies (map : DependencyMap) (id : String) : List String := (map.lookup id).getD []

def sortedDependencies (map : DependencyMap) (id : String) : List String :=
  sortedIds (map.dependencies id)

def keys (map : DependencyMap) : List String := map.map Prod.fst

/-- Every id of the map in order of first appearance, a listed id before what it refers to. -/
def ids (map : DependencyMap) : List String :=
  firstAppearances (map.flatMap fun entry => entry.1 :: sortedIds entry.2)

/-! ## §2 Source -/

/-- The map of formulas by id: first the ids without a formula, then the formulas. -/
def ofFormulas {α : Type} (formulas : List (String × Formula.Expr α)) (leaves : List String) :
    DependencyMap :=
  (firstAppearances (leaves.filter fun id => !formulas.any (·.1 == id))).map (·, []) ++
    formulas.map fun entry => (entry.1, sortedIds entry.2.references)

/-! ## §3 Links -/

/-- What each id refers to, in order, and finitely many ids that hold all of it. -/
structure Links where
  next : String → List String
  targets : List String
  inside : ∀ a, ∀ b ∈ next a, b ∈ targets

/-- What every listed id refers to, in increasing order, made for many look-ups. The first entry of
an id counts. -/
def index (map : DependencyMap) : Std.HashMap String (List String) :=
  map.foldr (fun entry index => index.insert entry.1 (sortedIds entry.2)) ∅

theorem index_getD (map : DependencyMap) (id : String) :
    map.index.getD id [] = map.sortedDependencies id := by
  unfold index sortedDependencies dependencies
  induction map with
  | nil => simp [sortedIds, sortIds, dropRepeats]
  | cons entry rest ih =>
    rw [List.foldr_cons, Std.HashMap.getD_insert, List.lookup_cons]
    by_cases same : entry.1 = id
    · simp [same]
    · have other : (id == entry.1) = false := by simpa using fun h => same h.symm
      simp [same, other, ih]

/-- What an id refers to stands in the list of some entry. -/
theorem mem_targets {map : DependencyMap} {a b : String} (h : b ∈ map.sortedDependencies a) :
    b ∈ map.flatMap Prod.snd := by
  rw [sortedDependencies, mem_sortedIds, dependencies] at h
  cases found : map.lookup a with
  | none => simp [found] at h
  | some listed =>
    obtain ⟨before, after, split, -⟩ := List.lookup_eq_some_iff.mp found
    rw [found, Option.getD_some] at h
    simp [split, h]

/-- The references of a map, ready for many look-ups. -/
def links (map : DependencyMap) : Links :=
  let index := map.index
  { next := (index.getD · [])
    targets := map.flatMap Prod.snd
    inside := fun a _ listed => mem_targets (index_getD map a ▸ listed) }

end DependencyMap

end BusinessCase
