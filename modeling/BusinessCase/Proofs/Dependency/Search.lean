/-
BusinessCase.Proofs.Dependency.Search — in which order the depth-first search
meets the ids.

  §1 Order   — depth-first order as the relation `Meets`.
  §2 Numbers — `Listed`: the numbers count the ids in the order of meeting them.
  §3 Search  — `explore_meets` and `exploreFrom_meets`: the search meets its ids
               in depth-first order.
-/
import BusinessCase.Dependency.Components
import Mathlib.Data.List.Nodup
import Mathlib.Logic.Relation
import Mathlib.Tactic.Tauto

namespace BusinessCase.DependencyMap

/-- One step of a search leads from `a` to `b`. -/
def LeadsTo (next : String → List String) (a b : String) : Prop := b ∈ next a

variable {next : String → List String}

/-! ## §1 Order -/

/-- Depth-first search as a relation: a search that has met `seen` and is to visit the pending ids
in turn meets `met`, in that order. An id that was seen is passed over; any other is met, then
everything that the search meets below it, and then what it meets beyond. -/
inductive Meets (next : String → List String) : (seen pending met : List String) → Prop where
  | done (seen : List String) : Meets next seen [] []
  | again {seen rest met : List String} {id : String} (known : id ∈ seen)
      (onward : Meets next seen rest met) : Meets next seen (id :: rest) met
  | first {seen rest below beyond : List String} {id : String} (unknown : id ∉ seen)
      (downward : Meets next (id :: seen) (next id) below)
      (onward : Meets next (below ++ id :: seen) rest beyond) :
      Meets next seen (id :: rest) (id :: (below ++ beyond))

/-- There is one order only. -/
theorem Meets.unique {seen pending met other : List String} (h : Meets next seen pending met)
    (h' : Meets next seen pending other) : other = met := by
  induction h generalizing other with
  | done => cases h'; rfl
  | again known _ ih =>
    cases h' with
    | again _ onward => exact ih onward
    | first unknown => exact absurd known unknown
  | first unknown _ _ ihBelow ihBeyond =>
    cases h' with
    | again known => exact absurd known unknown
    | first _ downward onward =>
      obtain rfl := ihBelow downward
      rw [ihBeyond onward]

/-- Only the members of what was seen matter. -/
theorem Meets.congr {seen seen' pending met : List String} (h : Meets next seen pending met)
    (same : ∀ id, id ∈ seen ↔ id ∈ seen') : Meets next seen' pending met := by
  induction h generalizing seen' with
  | done => exact .done _
  | again known _ ih => exact .again ((same _).mp known) (ih same)
  | first unknown _ _ ihBelow ihBeyond =>
    refine .first (fun known => unknown ((same _).mpr known)) (ihBelow fun id => ?_)
      (ihBeyond fun id => ?_)
    · simp only [List.mem_cons, same id]
    · simp only [List.mem_append, List.mem_cons, same id]

/-- Whatever is pending has been seen or is met. -/
theorem Meets.mem_of_pending {seen pending met : List String} (h : Meets next seen pending met)
    {id : String} (isPending : id ∈ pending) : id ∈ seen ∨ id ∈ met := by
  induction h with
  | done => cases isPending
  | again known _ ih =>
    rcases List.mem_cons.mp isPending with rfl | later
    · exact .inl known
    · exact ih later
  | first unknown _ _ _ ihBeyond =>
    rcases List.mem_cons.mp isPending with rfl | later
    · exact .inr List.mem_cons_self
    · rcases ihBeyond later with seen | beyond
      · rcases List.mem_append.mp seen with below | before
        · exact .inr (List.mem_cons_of_mem _ (List.mem_append_left _ below))
        · rcases List.mem_cons.mp before with rfl | before
          · exact .inr List.mem_cons_self
          · exact .inl before
      · exact .inr (List.mem_cons_of_mem _ (List.mem_append_right _ beyond))

/-- Pending ids in two parts are visited one part after the other. -/
theorem Meets.split {seen met : List String} (firsts : List String) {seconds : List String}
    (h : Meets next seen (firsts ++ seconds) met) :
    ∃ below beyond, met = below ++ beyond ∧ Meets next seen firsts below ∧
      Meets next (below ++ seen) seconds beyond := by
  induction firsts generalizing seen met with
  | nil => exact ⟨[], met, rfl, .done seen, h⟩
  | cons id rest ih =>
    cases h with
    | again known onward =>
      obtain ⟨below, beyond, rfl, here, there⟩ := ih onward
      exact ⟨below, beyond, rfl, .again known here, there⟩
    | @first _ _ under _ _ unknown downward onward =>
      obtain ⟨below, beyond, rfl, here, there⟩ := ih onward
      refine ⟨id :: (under ++ below), beyond, by simp, .first unknown downward here, ?_⟩
      refine there.congr fun other => ?_
      simp only [List.mem_append, List.mem_cons]
      tauto

/-- An id is met, then what lies below it and what was pending behind it. -/
theorem Meets.first_of_append {seen pending met : List String} {id : String} (unknown : id ∉ seen)
    (h : Meets next (seen ++ [id]) (next id ++ pending) met) :
    Meets next seen (id :: pending) (id :: met) := by
  obtain ⟨below, beyond, rfl, here, there⟩ := h.split
  refine .first unknown (here.congr fun other => ?_) (there.congr fun other => ?_)
  · simp only [List.mem_append, List.mem_cons, List.not_mem_nil, or_false]
    exact or_comm
  · simp only [List.mem_append, List.mem_cons, List.not_mem_nil, or_false]
    tauto

/-! ## §2 Numbers -/

/-- The ids that were met, in the order of their numbers. -/
structure Listed (marks : Marks) (met : List String) : Prop where
  mem : ∀ id, id ∈ marks.index ↔ id ∈ met
  size : marks.index.size = met.length
  number : ∀ i (inside : i < met.length), marks.indexOf met[i] = i

theorem listed_start : Listed {} [] :=
  ⟨fun id => by simp, by simp, fun i inside => absurd inside (Nat.not_lt_zero i)⟩

/-- Only the numbers matter. -/
theorem Listed.congr {marks marks' : Marks} {met : List String} (h : Listed marks met)
    (same : marks'.index = marks.index) : Listed marks' met := by
  obtain ⟨mem, size, number⟩ := h
  exact ⟨same ▸ mem, same ▸ size, fun i inside => by rw [Marks.indexOf, same]; exact number i inside⟩

/-- A new id gets the next number. -/
theorem Listed.discover {marks : Marks} {met : List String} (h : Listed marks met) {id : String}
    (new : id ∉ marks.index) : Listed (marks.discover id) (met ++ [id]) := by
  constructor
  · intro other
    rw [Marks.discover, Std.HashMap.mem_insert, h.mem, List.mem_append, List.mem_singleton,
      beq_iff_eq, eq_comm]
    exact or_comm
  · rw [Marks.discover, Std.HashMap.size_insert, if_neg new, h.size, List.length_append,
      List.length_singleton]
  · intro i inside
    rw [Marks.indexOf, Marks.discover, Std.HashMap.getD_insert]
    rcases Nat.lt_or_ge i met.length with old | last
    · rw [List.getElem_append_left old]
      have known : met[i] ∈ marks.index := (h.mem _).mpr (List.getElem_mem old)
      have other : (id == met[i]) = false := by
        simpa using fun same : id = met[i] => new (same ▸ known)
      rw [other]
      exact h.number i old
    · have at_end : i = met.length := by
        rw [List.length_append, List.length_singleton] at inside
        omega
      subst at_end
      simp [h.size]

/-- The ids stand in increasing order of their numbers. -/
theorem Listed.pairwise {marks : Marks} {met : List String} (h : Listed marks met) :
    met.Pairwise fun a b => marks.indexOf a < marks.indexOf b := by
  rw [List.pairwise_iff_getElem]
  intro i j hi hj before
  rw [h.number i hi, h.number j hj]
  exact before

/-- No two ids have the same number. -/
theorem Listed.eq_of_indexOf_eq {marks : Marks} {met : List String} (h : Listed marks met)
    {a b : String} (first : a ∈ met) (second : b ∈ met)
    (same : marks.indexOf a = marks.indexOf b) : a = b := by
  obtain ⟨i, hi, rfl⟩ := List.getElem_of_mem first
  obtain ⟨j, hj, rfl⟩ := List.getElem_of_mem second
  rw [h.number i hi, h.number j hj] at same
  subst same
  rfl

/-! ## §3 Search -/

variable {links : Links}

/-- **What is left of the search meets its ids in depth-first order.** -/
theorem explore_meets {marks : Marks} {met : List String} (listed : Listed marks met)
    (work : List (Visit links)) :
    ∃ more, Listed (explore links marks work) (met ++ more) ∧
      Meets links.next met (work.flatMap (·.pending)) more := by
  fun_induction explore links marks work generalizing met with
  | case1 marks => exact ⟨[], by simpa using listed, .done met⟩
  | case2 marks id inside work ih => exact ih (listed.congr (complete_passOn_index marks id work))
  | case3 marks id other pending inside work known ih =>
    obtain ⟨more, listed', meets⟩ := ih (listed.congr (meetAgain_index marks id other))
    exact ⟨more, listed', .again ((listed.mem other).mp known) meets⟩
  | case4 marks id other pending inside work new ih =>
    obtain ⟨more, listed', meets⟩ := ih (listed.discover new)
    refine ⟨other :: more, by simpa using listed', ?_⟩
    exact meets.first_of_append fun known => new ((listed.mem other).mpr known)

/-- The searches from the listed ids, one after the other, meet all in depth-first order. -/
theorem exploreFrom_meets (links : Links) (roots : List String) {marks : Marks} {met : List String}
    (listed : Listed marks met) :
    ∃ more, Listed (roots.foldl (exploreFrom links) marks) (met ++ more) ∧
      Meets links.next met roots more := by
  induction roots generalizing marks met with
  | nil => exact ⟨[], by simpa using listed, .done met⟩
  | cons root roots ih =>
    rw [List.foldl_cons, exploreFrom]
    split
    · next known =>
      obtain ⟨more, listed', meets⟩ := ih listed
      exact ⟨more, listed', .again ((listed.mem root).mp known) meets⟩
    · next new =>
      obtain ⟨below, listed', downward⟩ := explore_meets (listed.discover new) [links.visit root]
      obtain ⟨beyond, listed'', onward⟩ := ih listed'
      refine ⟨root :: (below ++ beyond), by simpa using listed'', ?_⟩
      rw [List.flatMap_singleton, Links.visit] at downward
      refine .first (fun known => new ((listed.mem root).mpr known))
        (downward.congr fun other => ?_) (onward.congr fun other => ?_)
      · simp only [List.mem_append, List.mem_cons, List.not_mem_nil, or_false]
        exact or_comm
      · simp only [List.mem_append, List.mem_cons, List.not_mem_nil, or_false]
        tauto

end BusinessCase.DependencyMap
