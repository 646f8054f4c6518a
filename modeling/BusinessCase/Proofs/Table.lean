/-
BusinessCase.Proofs.Table — look-ups in tables.

A list of entries in which no name comes twice is a table as it stands, and a
look-up in it finds an entry of the list. In the table of any list of entries
the last one of a name is found.
-/
import BusinessCase.Table
import Mathlib.Data.List.Induction
import Mathlib.Data.List.Nodup

namespace BusinessCase.Table

variable {β : Type} {table : Table β} {name : String} {value : β}

theorem find?_cons (entry : String × β) (rest : Table β) (name : String) :
    find? (entry :: rest) name = if name = entry.1 then some entry.2 else find? rest name := by
  rw [find?, List.lookup_cons]
  by_cases same : name = entry.1
  · simp [same]
  · have other : (name == entry.1) = false := by simpa using same
    simp [same, other, find?]

theorem mem_of_find? (h : table.find? name = some value) : (name, value) ∈ table := by
  induction table with
  | nil => cases h
  | cons entry rest ih =>
    rw [find?_cons] at h
    split at h
    · next same =>
      cases h
      subst same
      exact List.mem_cons_self
    · exact List.mem_cons_of_mem entry (ih h)

theorem find?_eq_none_iff : table.find? name = none ↔ name ∉ table.names := by
  induction table with
  | nil => simp [find?, names]
  | cons entry rest ih =>
    rw [find?_cons, names, List.map_cons, List.mem_cons, not_or]
    split
    · next same => simp [same]
    · next other =>
      rw [ih, names]
      exact (and_iff_right other).symm

/-- Where no name comes twice, every entry is found. -/
theorem find?_eq_some_iff (nodup : table.names.Nodup) :
    table.find? name = some value ↔ (name, value) ∈ table := by
  refine ⟨mem_of_find?, fun member => ?_⟩
  induction table with
  | nil => cases member
  | cons entry rest ih =>
    obtain ⟨fresh, rest_nodup⟩ := List.nodup_cons.mp nodup
    rw [find?_cons]
    rcases List.mem_cons.mp member with rfl | later
    · exact if_pos rfl
    · have other : name ≠ entry.1 := by
        rintro rfl
        exact fresh (List.mem_map.mpr ⟨_, later, rfl⟩)
      rw [if_neg other]
      exact ih rest_nodup later

/-! ## Building tables -/

/-- A new name is put at the end. -/
theorem set_of_not_mem (h : name ∉ table.names) :
    table.set name value = table ++ [(name, value)] := by
  induction table with
  | nil => rfl
  | cons entry rest ih =>
    obtain ⟨other, later⟩ := not_or.mp (mt List.mem_cons.mpr h)
    rw [set, if_neg fun same => other same.symm, ih later, List.cons_append]

/-- Entries under new names are put at the end. -/
theorem overlay_of_nodup {entries : Table β} (h : (table ++ entries).names.Nodup) :
    table.overlay entries = table ++ entries := by
  induction entries generalizing table with
  | nil => simp [overlay]
  | cons entry rest ih =>
    have whole : table ++ entry :: rest = table ++ [entry] ++ rest := by simp
    have fresh : entry.1 ∉ table.names := by
      rw [names, List.map_append, List.map_cons] at h
      exact fun known => (List.nodup_append'.mp h).2.2 known List.mem_cons_self
    rw [overlay, List.foldl_cons, set_of_not_mem fresh, whole]
    exact ih (whole ▸ h)

/-- **Entries with different names are a table as they stand.** -/
theorem ofEntries_of_nodup {entries : Table β} (h : entries.names.Nodup) :
    ofEntries entries = entries := by
  have whole : ([] ++ entries : Table β).names.Nodup := h
  exact overlay_of_nodup whole

theorem ofEntries_concat (entries : List (String × β)) (entry : String × β) :
    ofEntries (entries ++ [entry]) = (ofEntries entries).set entry.1 entry.2 := by
  rw [ofEntries, overlay, List.foldl_append]
  rfl

/-- A look-up goes through the entries from the last to the first. -/
theorem find?_ofEntries (entries : List (String × β)) (name : String) :
    (ofEntries entries).find? name = find? entries.reverse name := by
  induction entries using List.reverseRecOn with
  | nil => rfl
  | append_singleton entries entry ih =>
    rw [ofEntries_concat, List.reverse_concat, find?_cons]
    by_cases same : name = entry.1
    · rw [if_pos same, same, find?_set_self]
    · rw [if_neg same, find?_set_of_ne _ _ same, ih]

/-- **The last entry of a name stands under it.** -/
theorem find?_ofEntries_eq_some_iff {entries : List (String × β)} :
    (ofEntries entries).find? name = some value ↔
      ∃ before after, entries = before ++ (name, value) :: after ∧ name ∉ names after := by
  rw [find?_ofEntries, find?, List.lookup_eq_some_iff]
  constructor
  · rintro ⟨after, before, split, unnamed⟩
    refine ⟨before.reverse, after.reverse, List.reverse_injective (by simp [split]), ?_⟩
    rw [names, List.map_reverse, List.mem_reverse, List.mem_map]
    rintro ⟨entry, member, rfl⟩
    simpa using unnamed entry member
  · rintro ⟨before, after, rfl, unnamed⟩
    refine ⟨after.reverse, before.reverse, by simp, fun entry member => ?_⟩
    have other : name ≠ entry.1 := fun same =>
      unnamed (List.mem_map.mpr ⟨entry, List.mem_reverse.mp member, same.symm⟩)
    simpa using other

theorem mem_names_ofEntries {entries : List (String × β)} :
    name ∈ (ofEntries entries).names ↔ name ∈ names entries := by
  rw [← not_iff_not, ← find?_eq_none_iff, find?_ofEntries, find?_eq_none_iff, names, names,
    List.map_reverse, List.mem_reverse]

end BusinessCase.Table
