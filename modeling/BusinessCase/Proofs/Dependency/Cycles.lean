/-
BusinessCase.Proofs.Dependency.Cycles — which ids lie on a cycle of
references, and in which order they are listed.

  §1 References — `Refers`, `OnCycle`, `DepthFirst`: what is claimed, said
                  without the search.
  §2 Ids        — every id that is referred to is an id of the map.
  §3 Cycles     — `mem_cycles_iff` and `cycles_sublist`; together
                  `cycles_exact`.
  §4 Formulas   — what formulas refer to.
-/
import BusinessCase.Proofs.Dependency.Ids
import BusinessCase.Proofs.Dependency.Components
import BusinessCase.Proofs.Table
import Mathlib.Data.List.Sort

namespace BusinessCase.DependencyMap

variable {map : DependencyMap} {a b id : String}

/-! ## §1 References -/

/-- `a` refers to `b` directly. -/
def Refers (map : DependencyMap) (a b : String) : Prop := b ∈ map.dependencies a

/-- One or more references lead from the id back to it. -/
def OnCycle (map : DependencyMap) (id : String) : Prop := Relation.TransGen map.Refers id id

/-- `met` is the order in which a depth-first search of the map meets its ids. It visits the listed
ids in turn, and below each of them what it refers to, in increasing order
(`sortedIds_pairwise`). -/
def DepthFirst (map : DependencyMap) (met : List String) : Prop :=
  Meets map.sortedDependencies [] map.keys met

/-- The order of the dependencies does not matter to what refers to what. -/
theorem leadsTo_sortedDependencies : LeadsTo map.sortedDependencies = map.Refers := by
  funext a b
  exact propext mem_sortedIds

/-! ## §2 Ids -/

/-- Only a listed id refers to anything. -/
theorem exists_entry_of_refers (h : map.Refers a b) : ∃ entry ∈ map, entry.1 = a ∧ b ∈ entry.2 := by
  unfold Refers dependencies at h
  induction map with
  | nil => simp at h
  | cons entry rest ih =>
    rw [List.lookup_cons] at h
    by_cases same : a = entry.1
    · exact ⟨entry, List.mem_cons_self, same.symm, by simpa [same] using h⟩
    · have other : (a == entry.1) = false := by simpa using same
      rw [other] at h
      obtain ⟨found, member, rest⟩ := ih h
      exact ⟨found, List.mem_cons_of_mem entry member, rest⟩

theorem mem_keys_of_refers (h : map.Refers a b) : a ∈ map.keys := by
  obtain ⟨entry, member, rfl, -⟩ := exists_entry_of_refers h
  exact List.mem_map_of_mem member

/-- The ids of a map are its listed ids and those in its lists. -/
theorem mem_ids : id ∈ map.ids ↔ ∃ entry ∈ map, id = entry.1 ∨ id ∈ entry.2 := by
  simp only [ids, mem_firstAppearances, List.mem_flatMap, List.mem_cons, mem_sortedIds]

theorem mem_ids_of_mem_keys (h : id ∈ map.keys) : id ∈ map.ids := by
  obtain ⟨entry, member, rfl⟩ := List.mem_map.mp h
  exact mem_ids.mpr ⟨entry, member, .inl rfl⟩

theorem mem_ids_of_refers (h : map.Refers a b) : b ∈ map.ids := by
  obtain ⟨entry, member, -, listed⟩ := exists_entry_of_refers h
  exact mem_ids.mpr ⟨entry, member, .inr listed⟩

/-! ## §3 Cycles -/

/-- The search uses the references of the map. -/
theorem links_next : map.links.next = map.sortedDependencies := funext (index_getD map)

/-- What the search has noted when it ends. -/
def searched (map : DependencyMap) : Marks := map.keys.foldl (exploreFrom map.links) {}

/-- The search meets the ids in depth-first order. -/
theorem exists_depthFirst (map : DependencyMap) :
    ∃ met, Listed map.searched met ∧ map.DepthFirst met := by
  obtain ⟨met, listed, meets⟩ := exploreFrom_meets map.links map.keys listed_start
  rw [links_next] at meets
  exact ⟨met, listed, meets⟩

theorem mem_cycles_iff_inCycle : id ∈ map.cycles ↔ id ∈ map.searched.inCycle := by
  rw [cycles, List.mem_mergeSort, Std.HashSet.mem_toList, searched]

theorem ongoing_searched : Ongoing map.links map.searched [] :=
  ongoing_search map.keys (ongoing_start map.links)

/-- **The ids on cycles are those that reach themselves.** -/
theorem mem_cycles_iff : id ∈ map.cycles ↔ map.OnCycle id := by
  rw [mem_cycles_iff_inCycle, ongoing_searched.mem_inCycle, Links.Returns, links_next,
    leadsTo_sortedDependencies, OnCycle, and_iff_right_iff_imp]
  intro onCycle
  obtain ⟨b, first, -⟩ := Relation.TransGen.head'_iff.mp onCycle
  obtain ⟨met, listed, meets⟩ := exists_depthFirst map
  rw [listed.mem]
  exact (meets.mem_of_pending (mem_keys_of_refers first)).resolve_left List.not_mem_nil

theorem cycles_nodup : map.cycles.Nodup := by
  rw [cycles, (List.mergeSort_perm _ _).nodup_iff]
  exact Std.HashSet.distinct_toList.imp fun distinct same => by simp [same] at distinct

/-- The ids on cycles are listed in the order in which the search meets them. -/
theorem cycles_sublist {met : List String} (listed : Listed map.searched met) :
    map.cycles.Sublist met := by
  have known : ∀ id ∈ map.cycles, id ∈ met := fun id onCycle =>
    (listed.mem id).mp (ongoing_searched.mem_inCycle.mp (mem_cycles_iff_inCycle.mp onCycle)).1
  have sorted : map.cycles.Pairwise fun a b => map.searched.indexOf a ≤ map.searched.indexOf b := by
    have ordered : map.cycles.Pairwise fun a b =>
        decide (map.searched.indexOf a ≤ map.searched.indexOf b) = true := by
      refine List.pairwise_mergeSort (fun a b c first second => ?_) (fun a b => ?_) _
      · simp only [decide_eq_true_eq] at first second ⊢
        exact Nat.le_trans first second
      · simpa using Nat.le_total _ _
    exact ordered.imp of_decide_eq_true
  -- No two of them have the same number, so the numbers rise strictly, as they do in `met`.
  have rising : map.cycles.Pairwise fun a b => map.searched.indexOf a < map.searched.indexOf b := by
    refine (sorted.and cycles_nodup).imp_of_mem fun {a b} first second both => ?_
    refine Nat.lt_of_le_of_ne both.1 fun same => both.2 ?_
    exact listed.eq_of_indexOf_eq (known a first) (known b second) same
  have antisymm : Std.Antisymm fun a b : String =>
      map.searched.indexOf a < map.searched.indexOf b :=
    ⟨fun a b first second => absurd first (Nat.lt_asymm second)⟩
  have inside := List.subperm_of_subset cycles_nodup known
  exact List.sublist_of_subperm_of_pairwise inside rising listed.pairwise

/-- **The cycles of a map, exactly.** Every id that reaches itself by one or more references is
listed, each once and no other, and in the order in which the depth-first search meets them; there
is only one such order. -/
theorem cycles_exact (map : DependencyMap) :
    map.cycles.Nodup ∧
      (∀ id, id ∈ map.cycles ↔ map.OnCycle id) ∧
      ∃ met, map.DepthFirst met ∧ (∀ other, map.DepthFirst other → other = met) ∧
        map.cycles.Sublist met := by
  obtain ⟨met, listed, meets⟩ := exists_depthFirst map
  exact ⟨cycles_nodup, fun _ => mem_cycles_iff, met, meets, fun _ other => meets.unique other,
    cycles_sublist listed⟩

/-! ## §4 Formulas -/

variable {α : Type} {formulas : Table (Formula.Expr α)} {leaves : List String}

/-- The formulas listed with what they refer to. -/
theorem lookup_map_references (formulas : Table (Formula.Expr α)) (id : String) :
    (formulas.map fun entry => (entry.1, sortedIds entry.2.references)).lookup id =
      (formulas.find? id).map fun e => sortedIds e.references := by
  induction formulas with
  | nil => rfl
  | cons entry rest ih =>
    rw [List.map_cons, List.lookup_cons, Table.find?_cons, ih]
    by_cases same : id = entry.1
    · simp [same]
    · have other : (id == entry.1) = false := by simpa using same
      simp [same, other]

/-- An id without a formula refers to nothing. -/
theorem lookup_map_nothing {ids : List String} {id : String} {listed : List String}
    (h : (ids.map fun id => (id, ([] : List String))).lookup id = some listed) :
    id ∈ ids ∧ listed = [] := by
  have member := Table.mem_of_find? h
  obtain ⟨leaf, isLeaf, same⟩ := List.mem_map.mp member
  cases same
  exact ⟨isLeaf, rfl⟩

/-- A leaf is not the id of a formula. -/
theorem not_mem_names_of_leaf {id : String}
    (h : id ∈ firstAppearances (leaves.filter fun id => !formulas.any (·.1 == id))) :
    id ∉ formulas.names := by
  intro named
  have unlisted := (List.mem_filter.mp (mem_firstAppearances.mp h)).2
  obtain ⟨entry, member, rfl⟩ := List.mem_map.mp named
  have listed : formulas.any (·.1 == entry.1) = true :=
    List.any_eq_true.mpr ⟨entry, member, beq_self_eq_true _⟩
  rw [listed] at unlisted
  cases unlisted

/-- **A formula depends on what it refers to**, and nothing else depends on anything. -/
theorem refers_ofFormulas :
    (ofFormulas formulas leaves).Refers a b ↔
      ∃ e, formulas.find? a = some e ∧ b ∈ e.references := by
  rw [Refers, dependencies, ofFormulas, List.lookup_append, lookup_map_references]
  cases leaf : ((firstAppearances (leaves.filter fun id => !formulas.any (·.1 == id))).map
      fun id => (id, ([] : List String))).lookup a with
  | none => cases formulas.find? a <;> simp [mem_sortedIds]
  | some listed =>
    obtain ⟨isLeaf, rfl⟩ := lookup_map_nothing leaf
    have missing : formulas.find? a = none :=
      Table.find?_eq_none_iff.mpr (not_mem_names_of_leaf isLeaf)
    simp [missing]

/-- No id is listed twice if no two formulas have the same one. -/
theorem keys_ofFormulas_nodup (nodup : formulas.names.Nodup) :
    (ofFormulas formulas leaves).keys.Nodup := by
  have split_eq : (ofFormulas formulas leaves).keys =
      firstAppearances (leaves.filter fun id => !formulas.any (·.1 == id)) ++ formulas.names := by
    simp [keys, ofFormulas, Table.names, Function.comp_def]
  rw [split_eq]
  exact List.nodup_append'.mpr
    ⟨firstAppearances_nodup _, nodup, fun _ leaf => not_mem_names_of_leaf leaf⟩

theorem mem_ids_ofFormulas {e : Formula.Expr α} (found : formulas.find? id = some e) :
    id ∈ (ofFormulas formulas leaves).ids := by
  refine mem_ids_of_mem_keys (List.mem_map.mpr ⟨(id, sortedIds e.references), ?_, rfl⟩)
  exact List.mem_append_right _ (List.mem_map.mpr ⟨(id, e), Table.mem_of_find? found, rfl⟩)

end BusinessCase.DependencyMap
