/-
BusinessCase.Table — values under names, in order of first entry.
-/

namespace BusinessCase

/-- Values by name. No name is listed twice as long as entries are made by `set`. -/
abbrev Table (β : Type) := List (String × β)

namespace Table

variable {β γ : Type}

def find? (table : Table β) (name : String) : Option β := table.lookup name

/-- Puts a value under a name; a name that is there already keeps its place. -/
def set (table : Table β) (name : String) (value : β) : Table β :=
  match table with
  | [] => [(name, value)]
  | (other, old) :: rest =>
    if other = name then (name, value) :: rest else (other, old) :: set rest name value

/-- Puts all entries of a second table on top of the first. -/
def overlay (table entries : Table β) : Table β :=
  entries.foldl (fun table entry => table.set entry.1 entry.2) table

/-- The table of a list of entries, later ones winning. -/
def ofEntries (entries : List (String × β)) : Table β := overlay [] entries

def names (table : Table β) : List String := table.map Prod.fst

/-- Just after a name is set it has that value. -/
theorem find?_set_self (table : Table β) (name : String) (value : β) :
    (table.set name value).find? name = some value := by
  induction table with
  | nil => simp [set, find?]
  | cons entry rest ih =>
    by_cases same : entry.1 = name
    · simp [set, same, find?]
    · have ne : (name == entry.1) = false := by
        simpa using fun h : name = entry.1 => same h.symm
      rw [set, if_neg same, find?, List.lookup_cons, ne]
      exact ih

/-- Setting a name leaves the others alone. -/
theorem find?_set_of_ne (table : Table β) {name other : String} (value : β) (h : other ≠ name) :
    (table.set name value).find? other = table.find? other := by
  have unequal : (other == name) = false := by simpa using h
  induction table with
  | nil => simpa [set, find?] using h
  | cons entry rest ih =>
    obtain ⟨first, old⟩ := entry
    by_cases same : first = name
    · subst same
      simp [set, find?, List.lookup_cons, unequal]
    · simp only [find?] at ih
      simp [set, find?, List.lookup_cons, same, ih]

end Table

end BusinessCase
