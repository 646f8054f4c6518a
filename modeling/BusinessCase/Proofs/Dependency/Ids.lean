/-
BusinessCase.Proofs.Dependency.Ids — lists of ids taken as sets.

`sortedIds` and `firstAppearances` keep the members of a list; the first puts
them in increasing order, the second lists each of them once.
-/
import BusinessCase.Dependency.Ids
import Mathlib.Data.List.Induction
import Mathlib.Data.List.Nodup

namespace BusinessCase

/-- One text comes before another unless its code points come later. -/
theorem precedes_iff {a b : String} :
    Text.precedes a b = true ↔
      ¬ List.Lex (fun m n : Nat => m < n) (Text.codes b.toList) (Text.codes a.toList) := by
  rw [Text.precedes, Bool.not_eq_true', List.lex_eq_false_iff_not_lex]
  simp only [Nat.blt_eq]

theorem sortIds_pairwise (ids : List String) :
    (sortIds ids).Pairwise fun a b => Text.precedes a b = true := by
  refine List.pairwise_mergeSort (fun a b c first second => ?_) (fun a b => ?_) ids
  · rw [precedes_iff] at first second ⊢
    exact List.le_trans first second
  · rw [Bool.or_eq_true, precedes_iff, precedes_iff]
    exact List.le_total _ _

theorem dropRepeats_sublist : ∀ ids : List String, (dropRepeats ids).Sublist ids
  | [] => .slnil
  | [_] => .refl _
  | a :: b :: rest => by
    have ih : (dropRepeats (b :: rest)).Sublist (b :: rest) := dropRepeats_sublist (b :: rest)
    rw [dropRepeats]
    split
    · exact ih.cons a
    · exact ih.cons_cons a

/-- The members stand in increasing order. -/
theorem sortedIds_pairwise (ids : List String) :
    (sortedIds ids).Pairwise fun a b => Text.precedes a b = true :=
  (sortIds_pairwise ids).sublist (dropRepeats_sublist _)

/-- An id more at the end counts if it is new. -/
theorem firstAppearances_concat (ids : List String) (id : String) :
    firstAppearances (ids ++ [id]) =
      if id ∈ firstAppearances ids then firstAppearances ids else firstAppearances ids ++ [id] := by
  simp only [firstAppearances, List.foldl_append, List.foldl_cons, List.foldl_nil,
    List.contains_eq_mem, List.mem_reverse, decide_eq_true_eq]
  split <;> simp

/-- Both together, because the list is built from the front. -/
theorem firstAppearances_nodup_and_mem (ids : List String) :
    (firstAppearances ids).Nodup ∧ ∀ id, id ∈ firstAppearances ids ↔ id ∈ ids := by
  induction ids using List.reverseRecOn with
  | nil => simp [firstAppearances]
  | append_singleton ids last ih =>
    obtain ⟨nodup, members⟩ := ih
    rw [firstAppearances_concat]
    split
    · next known =>
      refine ⟨nodup, fun id => ?_⟩
      rw [members, List.mem_append, List.mem_singleton]
      exact ⟨.inl, fun h => h.elim (fun h => h) fun same => same ▸ (members last).mp known⟩
    · next new =>
      refine ⟨List.nodup_append'.mpr ⟨nodup, List.nodup_singleton last, ?_⟩, fun id => ?_⟩
      · simpa using new
      · rw [List.mem_append, members, List.mem_append]

theorem firstAppearances_nodup (ids : List String) : (firstAppearances ids).Nodup :=
  (firstAppearances_nodup_and_mem ids).1

theorem mem_firstAppearances {id : String} {ids : List String} :
    id ∈ firstAppearances ids ↔ id ∈ ids :=
  (firstAppearances_nodup_and_mem ids).2 id

end BusinessCase
