/-
BusinessCase.Proofs.Dependency.Schedule — the order of evaluation, exactly.

The order holds each id that leads to no cycle once, behind all it refers to,
so it is complete where the search for cycles finds none. It depends on the
members of each list of references alone: the lists are sorted before they are
used. That needs ids to be texts, which their code points tell apart.

  §1 Texts  — texts that come before each other.
  §2 Sets   — `SameSets`, and what is sorted before it is used.
  §3 Order  — `order_exact`.
-/
import BusinessCase.Proofs.Dependency.Order
import BusinessCase.Proofs.Text.Spelling

namespace BusinessCase

/-! ## §1 Texts -/

theorem IsSpelled.eq_of_precedes {a b : String} (first : IsSpelled a) (second : IsSpelled b)
    (before : Text.precedes a b) (behind : Text.precedes b a) : a = b := by
  rw [precedes_iff] at before behind
  exact first.eq_of_codes_eq second (List.le_antisymm before behind)

/-! ## §2 Sets -/

/-- In a sorted list equal members are neighbours, so dropping repeats leaves each member once. -/
theorem dropRepeats_nodup {ids : List String} (spelled : ∀ id ∈ ids, IsSpelled id)
    (sorted : ids.Pairwise fun a b => Text.precedes a b = true) : (dropRepeats ids).Nodup := by
  fun_induction dropRepeats ids with
  | case1 => exact List.nodup_nil
  | case2 a => exact List.nodup_singleton a
  | case3 b rest ih => exact ih (List.forall_mem_cons.mp spelled).2 sorted.of_cons
  | case4 a b rest distinct ih =>
    obtain ⟨first, others⟩ := List.forall_mem_cons.mp spelled
    refine List.nodup_cons.mpr ⟨fun again => ?_, ih others sorted.of_cons⟩
    have before : Text.precedes a b := List.rel_of_pairwise_cons sorted List.mem_cons_self
    rcases List.mem_cons.mp ((mem_dropRepeats _).mp again) with same | later
    · exact distinct same
    · have behind : Text.precedes b a := List.rel_of_pairwise_cons sorted.of_cons later
      exact distinct (first.eq_of_precedes (others b List.mem_cons_self) before behind)

theorem sortedIds_nodup {ids : List String} (spelled : ∀ id ∈ ids, IsSpelled id) :
    (sortedIds ids).Nodup :=
  dropRepeats_nodup (fun id member => spelled id (List.mem_mergeSort.mp member))
    (sortIds_pairwise ids)

/-- What is sorted depends on the members alone. -/
theorem sortedIds_congr {ids ids' : List String} (spelled : ∀ id ∈ ids, IsSpelled id)
    (same : ∀ id, id ∈ ids ↔ id ∈ ids') : sortedIds ids = sortedIds ids' := by
  have spelled' : ∀ id ∈ ids', IsSpelled id := fun id member => spelled id ((same id).mpr member)
  have perm : (sortedIds ids).Perm (sortedIds ids') :=
    (List.perm_ext_iff_of_nodup (sortedIds_nodup spelled) (sortedIds_nodup spelled')).mpr
      fun id => by rw [mem_sortedIds, mem_sortedIds, same]
  refine perm.eq_of_pairwise (fun a b member member' => ?_) (sortedIds_pairwise ids)
    (sortedIds_pairwise ids')
  exact (spelled a (mem_sortedIds.mp member)).eq_of_precedes
    (spelled' b (mem_sortedIds.mp member'))

namespace DependencyMap

variable {map other : DependencyMap} {id : String}

/-- The same ids in the same order, with the same sets of references, whichever way the members of
these are listed. -/
def SameSets (map other : DependencyMap) : Prop :=
  List.Forall₂ (fun entry entry' => entry.1 = entry'.1 ∧ ∀ id, id ∈ entry.2 ↔ id ∈ entry'.2)
    map other

/-- The map with its references in increasing order. -/
def sorted (map : DependencyMap) : DependencyMap :=
  map.map fun entry => (entry.1, sortedIds entry.2)

theorem SameSets.sorted_eq (same : map.SameSets other) (spelled : ∀ id ∈ map.ids, IsSpelled id) :
    map.sorted = other.sorted := by
  induction same with
  | nil => rfl
  | @cons entry entry' rest rest' h _ ih =>
    obtain ⟨id_eq, members⟩ := h
    have first : ∀ id ∈ entry.2, IsSpelled id := fun id member =>
      spelled id (mem_ids.mpr ⟨entry, List.mem_cons_self, .inr member⟩)
    have others : ∀ id ∈ ids rest, IsSpelled id := fun id member => by
      obtain ⟨entry, listed, named⟩ := mem_ids.mp member
      exact spelled id (mem_ids.mpr ⟨entry, List.mem_cons_of_mem _ listed, named⟩)
    have tail := ih others
    unfold sorted at tail ⊢
    rw [List.map_cons, List.map_cons, id_eq, sortedIds_congr first members, tail]

/-- The order is made from the sorted references. -/
theorem order_congr (same : map.sorted = other.sorted) : map.order = other.order := by
  have ids_eq (map : DependencyMap) :
      map.ids = firstAppearances (map.sorted.flatMap fun entry => entry.1 :: entry.2) := by
    rw [ids, sorted, List.flatMap_map]
  have waiting_eq (map : DependencyMap) :
      map.waiting =
        map.sorted.foldl (fun waiting entry => waiting.insert entry.1 entry.2.length) ∅ := by
    rw [waiting, sorted, List.foldl_map]
  have dependents_eq (map : DependencyMap) :
      map.dependents = map.sorted.foldl
        (fun dependents entry => addDependent dependents entry.1 entry.2) ∅ := by
    rw [dependents, sorted, List.foldl_map]
  simp only [order, ids_eq, waiting_eq, dependents_eq, same]

/-! ## §3 Order -/

/-- The order is complete where nothing lies on a cycle. -/
theorem forall_mem_order_iff (keys : map.keys.Nodup) :
    (∀ id ∈ map.ids, id ∈ map.order) ↔ map.cycles = [] := by
  constructor
  · refine fun complete => List.eq_nil_iff_forall_not_mem.mpr fun id member => ?_
    have onCycle : map.OnCycle id := mem_cycles_iff.mp member
    obtain ⟨b, -, refers⟩ := Relation.TransGen.tail'_iff.mp onCycle
    exact ((mem_order_iff keys).mp (complete id (mem_ids_of_refers refers))).2 id .refl onCycle
  · intro none id listed
    refine mem_order_of_acyclic keys (fun b onCycle => ?_) listed
    have member := mem_cycles_iff.mpr onCycle
    rw [none] at member
    cases member

/-- **The order of a map, exactly.** It lists, each once, the ids of the map that neither lie on a
cycle nor lead to one, and no other, every id behind all that it refers to. So it is complete if and
only if the search for cycles finds none. The order is the same whichever way the sets of references
are listed. -/
theorem order_exact (keys : map.keys.Nodup) :
    map.order.Nodup ∧
      (∀ id, id ∈ map.order ↔
        (∃ entry ∈ map, id = entry.1 ∨ id ∈ entry.2) ∧
          ¬ ∃ b, Relation.ReflTransGen map.Refers id b ∧ map.OnCycle b) ∧
      (∀ before id after, map.order = before ++ id :: after → ∀ b, map.Refers id b → b ∈ before) ∧
      ((∀ id ∈ map.ids, id ∈ map.order) ↔ map.cycles = []) ∧
      ∀ other, map.SameSets other → (∀ id ∈ map.ids, IsSpelled id) → other.order = map.order := by
  refine ⟨order_nodup keys, fun id => ?_, fun before id after split b refers => ?_,
    forall_mem_order_iff keys, fun other same spelled => ?_⟩
  · rw [mem_order_iff keys, mem_ids, not_exists]
    simp only [not_and]
  · have ready := ready_order keys
    rw [split] at ready
    simpa using ready.free b refers
  · exact (order_congr (same.sorted_eq spelled)).symm

/-- A tax that is taken on itself too is left out, and the order is the same with its references
listed the other way round. -/
theorem order_exact_tax :
    (keys [("tax", ["tax", "net"]), ("net", ["cost"])]).Nodup ∧
      "tax" ∉ order [("tax", ["tax", "net"]), ("net", ["cost"])] ∧
      order [("tax", ["net", "tax"]), ("net", ["cost"])] =
        order [("tax", ["tax", "net"]), ("net", ["cost"])] := by
  have nodup : (keys [("tax", ["tax", "net"]), ("net", ["cost"])]).Nodup := by decide
  obtain ⟨-, members, -, -, sets⟩ := order_exact nodup
  have refers : Refers [("tax", ["tax", "net"]), ("net", ["cost"])] "tax" "tax" := by
    show "tax" ∈ ["tax", "net"]
    exact List.mem_cons_self
  refine ⟨nodup, fun member => ((members "tax").mp member).2 ⟨"tax", .refl, .single refers⟩, ?_⟩
  have same : SameSets [("tax", ["tax", "net"]), ("net", ["cost"])]
      [("tax", ["net", "tax"]), ("net", ["cost"])] :=
    .cons ⟨rfl, fun id => by simp [or_comm]⟩ (.cons ⟨rfl, fun id => .rfl⟩ .nil)
  refine sets _ same fun id member => ?_
  have listed : id = "tax" ∨ id = "net" ∨ id = "cost" := by
    simpa [mem_ids, or_comm, or_assoc, or_left_comm] using member
  rcases listed with rfl | rfl | rfl
  · exact ⟨[116, 97, 120], by decide, by decide⟩
  · exact ⟨[110, 101, 116], by decide, by decide⟩
  · exact ⟨[99, 111, 115, 116], by decide, by decide⟩

end DependencyMap

end BusinessCase
