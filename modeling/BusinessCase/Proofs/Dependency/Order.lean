/-
BusinessCase.Proofs.Dependency.Order — the order of evaluation.

Taking ids from a queue keeps four things: of each id it is known how many of
its references have not been taken; what was taken or waits is free, which
means that all it refers to has been taken; nothing is taken or waits twice;
and every free id has been taken or waits. When the queue is empty, the ids
left out are held up by a cycle.

  §1 Tables   — what is counted at first, and who refers to an id.
  §2 Release  — what taking an id makes free.
  §3 Freedom  — `Free`, `Ready`, `Counted`.
  §4 Progress — `Progress`, kept by every round.
  §5 Order    — `ready_order`, `order_nodup`, `mem_order_iff_free`.
  §6 Cycles   — `mem_order_iff`.
-/
import BusinessCase.Dependency.Order
import BusinessCase.Proofs.Dependency.Cycles
import Mathlib.Data.Fintype.EquivFin
import Mathlib.Data.Fintype.Sets

namespace BusinessCase.DependencyMap

variable {map : DependencyMap} {done queue : List String} {id other : String}

/-! ## §1 Tables -/

/-- What was noted before stays for an id that the map does not list. -/
theorem foldl_insert_getD_of_not_mem {start : Waiting} (unlisted : id ∉ map.keys) :
    (map.foldl (fun waiting entry => waiting.insert entry.1 (sortedIds entry.2).length)
      start).getD id 0 = start.getD id 0 := by
  induction map generalizing start with
  | nil => rfl
  | cons entry rest ih =>
    obtain ⟨distinct, later⟩ := not_or.mp (List.mem_cons.not.mp unlisted)
    rw [List.foldl_cons, ih later, Std.HashMap.getD_insert,
      if_neg (by simpa using fun same : entry.1 = id => distinct same.symm)]

theorem foldl_insert_getD_of_mem {start : Waiting} (nodup : map.keys.Nodup)
    {entry : String × List String} (member : entry ∈ map) :
    (map.foldl (fun waiting entry => waiting.insert entry.1 (sortedIds entry.2).length)
      start).getD entry.1 0 = (sortedIds entry.2).length := by
  induction map generalizing start with
  | nil => cases member
  | cons head rest ih =>
    obtain ⟨fresh, nodup⟩ := List.nodup_cons.mp nodup
    rcases List.mem_cons.mp member with rfl | later
    · rw [List.foldl_cons, foldl_insert_getD_of_not_mem fresh, Std.HashMap.getD_insert_self]
    · exact ih nodup later

/-- Each reference adds the id once to those that refer there. -/
theorem addDependent_getD (dependents : Std.HashMap String (List String)) (other : String)
    (references : List String) :
    (addDependent dependents other references).getD id [] =
      dependents.getD id [] ++ List.replicate (references.count id) other := by
  induction references generalizing dependents with
  | nil => simp [addDependent]
  | cons target references ih =>
    have step : addDependent dependents other (target :: references) =
        addDependent (dependents.insert target (dependents.getD target [] ++ [other])) other
          references := rfl
    rw [step, ih, Std.HashMap.getD_insert, List.count_cons]
    by_cases same : target = id
    · simp [same, List.replicate_succ]
    · simp [same]

/-- The ids that refer to an id, as often as they do. -/
theorem dependents_getD (map : DependencyMap) (id : String) :
    map.dependents.getD id [] =
      map.flatMap fun entry => List.replicate ((sortedIds entry.2).count id) entry.1 := by
  have from_start (start : Std.HashMap String (List String)) :
      (map.foldl (fun dependents entry => addDependent dependents entry.1 (sortedIds entry.2))
        start).getD id [] =
      start.getD id [] ++
        map.flatMap fun entry => List.replicate ((sortedIds entry.2).count id) entry.1 := by
    induction map generalizing start with
    | nil => simp
    | cons entry rest ih =>
      rw [List.foldl_cons, ih, addDependent_getD, List.flatMap_cons, List.append_assoc]
  rw [dependents, from_start]
  simp

theorem mem_dependents :
    other ∈ map.dependents.getD id [] ↔ ∃ entry ∈ map, entry.1 = other ∧ id ∈ entry.2 := by
  rw [dependents_getD, List.mem_flatMap]
  refine exists_congr fun entry => and_congr_right fun _ => ?_
  rw [List.mem_replicate, Ne, List.count_eq_zero, Classical.not_not, mem_sortedIds, and_comm,
    eq_comm]

theorem count_dependents_of_not_mem (unlisted : other ∉ map.keys) :
    (map.dependents.getD id []).count other = 0 := by
  refine List.count_eq_zero.mpr fun depends => ?_
  obtain ⟨entry, member, rfl, -⟩ := mem_dependents.mp depends
  exact unlisted (List.mem_map_of_mem member)

theorem count_dependents (nodup : map.keys.Nodup) {entry : String × List String}
    (member : entry ∈ map) :
    (map.dependents.getD id []).count entry.1 = (sortedIds entry.2).count id := by
  rw [dependents_getD]
  induction map with
  | nil => cases member
  | cons head rest ih =>
    obtain ⟨fresh, nodup⟩ := List.nodup_cons.mp nodup
    rw [List.flatMap_cons, List.count_append, List.count_replicate]
    rcases List.mem_cons.mp member with rfl | later
    · have none : ((dependents rest).getD id []).count entry.1 = 0 :=
        count_dependents_of_not_mem fresh
      rw [dependents_getD] at none
      rw [none, beq_self_eq_true, if_pos rfl, Nat.add_zero]
    · have distinct : head.1 ≠ entry.1 := fun same =>
        fresh (same ▸ List.mem_map_of_mem later)
      rw [if_neg (by simpa using distinct), Nat.zero_add]
      exact ih nodup later

/-! ## §2 Release -/

/-- Releasing an id once takes one off what it waits for. -/
theorem getD_releaseOnce (waiting : Waiting) (first id : String) :
    (waiting.insert first (waiting.getD first 0 - 1)).getD id 0 =
      waiting.getD id 0 - if first == id then 1 else 0 := by
  rw [Std.HashMap.getD_insert]
  by_cases same : first = id <;> simp [same]

theorem release_getD (waiting : Waiting) (ids : List String) (id : String) :
    (release waiting ids).1.getD id 0 = waiting.getD id 0 - ids.count id := by
  induction ids generalizing waiting with
  | nil => rfl
  | cons first rest ih =>
    simp only [release]
    rw [ih, getD_releaseOnce, List.count_cons]
    omega

/-- An id that waits at least as often as it is released is freed if it waits no more often. -/
theorem mem_release {waiting : Waiting} {ids : List String}
    (enough : ids.count id ≤ waiting.getD id 0) :
    id ∈ (release waiting ids).2 ↔ id ∈ ids ∧ waiting.getD id 0 = ids.count id := by
  induction ids generalizing waiting with
  | nil => simp [release]
  | cons first rest ih =>
    have left := getD_releaseOnce waiting first id
    simp only [release]
    by_cases same : first = id
    · subst same
      rw [beq_self_eq_true, if_pos rfl] at left
      rw [List.count_cons_self] at enough ⊢
      have enough' : rest.count first ≤
          (waiting.insert first (waiting.getD first 0 - 1)).getD first 0 := by omega
      have later := ih enough'
      split
      · next last => exact iff_of_true List.mem_cons_self ⟨List.mem_cons_self, by omega⟩
      · next more =>
        rw [later, left]
        constructor
        · rintro ⟨-, all⟩
          exact ⟨List.mem_cons_self, by omega⟩
        · rintro ⟨-, all⟩
          exact ⟨List.count_pos_iff.mp (by omega), by omega⟩
    · have distinct : (first == id) = false := by simpa using same
      rw [distinct, if_neg Bool.false_ne_true, Nat.sub_zero] at left
      rw [List.count_cons_of_ne same] at enough ⊢
      have later := ih (le_of_le_of_eq enough left.symm)
      have atRest : id ∈ first :: rest ↔ id ∈ rest := by
        rw [List.mem_cons, or_iff_right fun h => same h.symm]
      rw [atRest, ← left, ← later]
      split
      · rw [List.mem_cons, or_iff_right fun h => same h.symm]
      · rfl

/-- No id is freed twice. -/
theorem release_nodup {waiting : Waiting} {ids : List String}
    (enough : ∀ id, ids.count id ≤ waiting.getD id 0) : (release waiting ids).2.Nodup := by
  induction ids generalizing waiting with
  | nil => exact List.nodup_nil
  | cons first rest ih =>
    have later (id : String) :
        rest.count id ≤ (waiting.insert first (waiting.getD first 0 - 1)).getD id 0 := by
      have all := enough id
      rw [List.count_cons] at all
      rw [getD_releaseOnce]
      omega
    simp only [release]
    split
    · next last =>
      refine List.nodup_cons.mpr ⟨fun again => ?_, ih later⟩
      obtain ⟨member, all⟩ := (mem_release (later first)).mp again
      rw [getD_releaseOnce, beq_self_eq_true, if_pos rfl, last] at all
      exact Nat.ne_of_lt (List.count_pos_iff.mpr member) all
    · exact ih later

/-! ## §3 Freedom -/

/-- Everything that the id refers to has been taken. -/
def Free (map : DependencyMap) (done : List String) (id : String) : Prop :=
  ∀ b, map.Refers id b → b ∈ done

/-- Each id of the list is free once those before it have been taken. -/
def Ready (map : DependencyMap) : (done order : List String) → Prop
  | _, [] => True
  | done, id :: rest => map.Free done id ∧ map.Ready (id :: done) rest

theorem Free.mono {more : List String} (h : map.Free done id) (le : ∀ b ∈ done, b ∈ more) :
    map.Free more id :=
  fun b refers => le b (h b refers)

/-- Where no id is listed twice, each entry says what its id refers to. -/
theorem refers_of_mem (nodup : map.keys.Nodup) {entry : String × List String}
    (member : entry ∈ map) {b : String} : map.Refers entry.1 b ↔ b ∈ entry.2 := by
  have found : map.lookup entry.1 = some entry.2 := (Table.find?_eq_some_iff nodup).mpr member
  rw [Refers, dependencies, found, Option.getD_some]

/-- How many references in a list have not been taken. -/
def openCount (done references : List String) : Nat :=
  references.countP fun b => !done.contains b

/-- Each listed id waits for its references that have not been taken. -/
def Counted (map : DependencyMap) (done : List String) (waiting : Waiting) : Prop :=
  ∀ entry ∈ map, waiting.getD entry.1 0 = openCount done (sortedIds entry.2)

/-- An id is free if none of its references is left. -/
theorem free_iff (nodup : map.keys.Nodup) {entry : String × List String} (member : entry ∈ map) :
    map.Free done entry.1 ↔ openCount done (sortedIds entry.2) = 0 := by
  simp only [Free, refers_of_mem nodup member, openCount, List.countP_eq_zero, mem_sortedIds,
    Bool.not_eq_true', List.contains_eq_mem, decide_eq_false_iff_not, Classical.not_not]

/-- Taking an id takes off the references to it. -/
theorem openCount_eq (fresh : id ∉ done) (references : List String) :
    openCount done references = references.count id + openCount (id :: done) references := by
  induction references with
  | nil => rfl
  | cons b references ih =>
    simp only [openCount] at ih
    simp only [openCount, List.countP_cons, List.count_cons, ih]
    by_cases same : b = id
    · simp [same, fresh]
      omega
    · simp [same]
      omega

theorem counted_waiting (keys : map.keys.Nodup) : map.Counted [] map.waiting := by
  intro entry member
  rw [waiting, foldl_insert_getD_of_mem keys member]
  simp [openCount]

/-- **Taking an id** keeps the counts, and makes free, each once, the ids that refer to it and have
no other reference left. -/
theorem Counted.release {waiting : Waiting} (keys : map.keys.Nodup) (h : map.Counted done waiting)
    (fresh : id ∉ done) :
    map.Counted (id :: done) (release waiting (map.dependents.getD id [])).1 ∧
      (release waiting (map.dependents.getD id [])).2.Nodup ∧
      ∀ other, other ∈ (release waiting (map.dependents.getD id [])).2 ↔
        map.Refers other id ∧ map.Free (id :: done) other := by
  have enough (other : String) :
      (map.dependents.getD id []).count other ≤ waiting.getD other 0 := by
    by_cases listed : other ∈ map.keys
    · obtain ⟨entry, member, rfl⟩ := List.mem_map.mp listed
      rw [count_dependents keys member, h entry member, openCount_eq fresh]
      exact Nat.le_add_right _ _
    · rw [count_dependents_of_not_mem listed]
      exact Nat.zero_le _
  refine ⟨fun entry member => ?_, release_nodup enough, fun other => ?_⟩
  · rw [release_getD, h entry member, count_dependents keys member, openCount_eq fresh,
      Nat.add_sub_cancel_left]
  · have none_left {entry : String × List String} (member : entry ∈ map) :
        waiting.getD entry.1 0 = (map.dependents.getD id []).count entry.1 ↔
          map.Free (id :: done) entry.1 := by
      rw [h entry member, count_dependents keys member, openCount_eq fresh, free_iff keys member]
      omega
    rw [mem_release (enough other), mem_dependents]
    constructor
    · rintro ⟨⟨entry, member, rfl, listed⟩, all⟩
      exact ⟨(refers_of_mem keys member).mpr listed, (none_left member).mp all⟩
    · rintro ⟨refers, free⟩
      obtain ⟨entry, member, rfl, listed⟩ := exists_entry_of_refers refers
      exact ⟨⟨entry, member, rfl, listed⟩, (none_left member).mpr free⟩

/-! ## §4 Progress -/

/-- What holds of the ids taken and those that wait. -/
structure Progress (map : DependencyMap) (done queue : List String) : Prop where
  nodup : (done ++ queue).Nodup
  inside : ∀ id ∈ done ++ queue, id ∈ map.ids
  free : ∀ id ∈ done ++ queue, map.Free done id
  met : ∀ id ∈ map.ids, map.Free done id → id ∈ done ++ queue

/-- Taking the first id that waits keeps the progress, if what that makes free joins the queue. -/
theorem Progress.next (h : map.Progress done (id :: queue)) {released : List String}
    (nodup : released.Nodup)
    (mem : ∀ other, other ∈ released ↔ map.Refers other id ∧ map.Free (id :: done) other) :
    map.Progress (id :: done) (queue ++ released) := by
  have grows : ∀ b ∈ done, b ∈ id :: done := fun b taken => List.mem_cons_of_mem id taken
  have fresh : id ∉ done ++ queue := (List.nodup_middle.mp h.nodup).notMem
  have same (b : String) : b ∈ id :: done ++ queue ↔ b ∈ done ++ id :: queue := by
    simp only [List.cons_append, List.mem_cons, List.mem_append]
    exact or_left_comm
  -- What is released refers to `id`, which nothing free did before.
  have new : ∀ b ∈ released, b ∉ id :: done ++ queue := by
    intro b isReleased known
    have refers := ((mem b).mp isReleased).1
    have taken := h.free b ((same b).mp known) id refers
    exact fresh (List.mem_append_left queue taken)
  have whole : (id :: done ++ queue).Nodup := List.nodup_middle.mp h.nodup
  have assoc : id :: done ++ (queue ++ released) =
      id :: done ++ queue ++ released := by simp
  constructor
  case nodup =>
    rw [assoc]
    exact List.nodup_append'.mpr ⟨whole, nodup, fun b known isReleased =>
      new b isReleased known⟩
  case inside =>
    rw [assoc]
    intro b member
    rcases List.mem_append.mp member with known | isReleased
    · exact h.inside b ((same b).mp known)
    · exact mem_ids_of_mem_keys (mem_keys_of_refers ((mem b).mp isReleased).1)
  case free =>
    rw [assoc]
    intro b member
    rcases List.mem_append.mp member with known | isReleased
    · exact (h.free b ((same b).mp known)).mono grows
    · exact ((mem b).mp isReleased).2
  case met =>
    rw [assoc]
    intro b listed free
    by_cases refers : map.Refers b id
    · exact List.mem_append_right _ ((mem b).mpr ⟨refers, free⟩)
    · have before : map.Free done b := fun c refersTo => by
        rcases List.mem_cons.mp (free c refersTo) with rfl | taken
        · exact absurd refersTo refers
        · exact taken
      exact List.mem_append_left _ ((same b).mpr (h.met b listed before))

/-- The ids that refer to nothing are the first to wait. -/
theorem progress_start (keys : map.keys.Nodup) :
    map.Progress [] (map.ids.filter (map.waiting.getD · 0 == 0)) := by
  have free_iff (b : String) : map.Free [] b ↔ (map.waiting.getD b 0 == 0) = true := by
    by_cases listed : b ∈ map.keys
    · obtain ⟨entry, member, rfl⟩ := List.mem_map.mp listed
      rw [beq_iff_eq, counted_waiting keys entry member, free_iff keys member]
    · have nothing : map.waiting.getD b 0 = 0 := by
        rw [waiting, foldl_insert_getD_of_not_mem listed, Std.HashMap.getD_empty]
      rw [nothing]
      exact iff_of_true (fun c refers => absurd (mem_keys_of_refers refers) listed) rfl
  constructor
  · exact (firstAppearances_nodup _).filter _
  · intro b member
    exact (List.mem_filter.mp member).1
  · intro b member
    exact (free_iff b).mpr (List.mem_filter.mp member).2
  · intro b listed free
    exact List.mem_filter.mpr ⟨listed, (free_iff b).mp free⟩

/-- No more ids are taken or wait than the map has. -/
theorem Progress.length_le (h : map.Progress done queue) :
    done.length + queue.length ≤ map.ids.length := by
  rw [← List.length_append]
  exact (h.nodup.subperm h.inside).length_le

/-- Enough rounds empty the queue; what they take is ready in this order. -/
theorem orderFrom_progress (keys : map.keys.Nodup) {rounds : Nat} {waiting : Waiting}
    (counted : map.Counted done waiting) (h : map.Progress done queue)
    (enough : map.ids.length ≤ rounds + done.length) :
    map.Ready done (orderFrom (map.dependents.getD · []) rounds waiting queue) ∧
      map.Progress ((orderFrom (map.dependents.getD · []) rounds waiting queue).reverse ++ done)
        [] := by
  induction rounds generalizing done queue waiting with
  | zero =>
    have full := h.length_le
    have empty : queue = [] := List.eq_nil_of_length_eq_zero (by omega)
    subst empty
    exact ⟨trivial, h⟩
  | succ rounds ih =>
    cases queue with
    | nil => exact ⟨trivial, h⟩
    | cons id queue =>
      have free : map.Free done id := h.free id (by simp)
      have fresh : id ∉ done := fun taken =>
        (List.nodup_middle.mp h.nodup).notMem (List.mem_append_left queue taken)
      obtain ⟨counted', nodup, mem⟩ := counted.release keys fresh
      obtain ⟨ready, finished⟩ :=
        ih counted' (h.next nodup mem) (by rw [List.length_cons]; omega)
      rw [orderFrom]
      refine ⟨⟨free, ready⟩, ?_⟩
      rw [List.reverse_cons, List.append_assoc]
      exact finished

/-! ## §5 Order -/

theorem order_progress (keys : map.keys.Nodup) :
    map.Ready [] map.order ∧ map.Progress map.order.reverse [] := by
  obtain ⟨ready, finished⟩ :=
    orderFrom_progress keys (counted_waiting keys) (progress_start keys) (Nat.le_refl _)
  rw [List.append_nil] at finished
  exact ⟨ready, finished⟩

/-- **Every id of the order comes after all ids it refers to.** -/
theorem ready_order (keys : map.keys.Nodup) : map.Ready [] map.order := (order_progress keys).1

/-- What an id of a ready order refers to has been taken before it. -/
theorem Ready.free {before after : List String} (h : map.Ready done (before ++ id :: after)) :
    map.Free (before.reverse ++ done) id := by
  induction before generalizing done with
  | nil => exact h.1
  | cons first before ih =>
    rw [List.reverse_cons, List.append_assoc]
    exact ih h.2

theorem order_nodup (keys : map.keys.Nodup) : map.order.Nodup := by
  have finished := (order_progress keys).2.nodup
  rw [List.append_nil] at finished
  exact List.nodup_reverse.mp finished

/-- An id of the map is in the order if and only if all it refers to is. -/
theorem mem_order_iff_free (keys : map.keys.Nodup) :
    id ∈ map.order ↔ id ∈ map.ids ∧ ∀ b, map.Refers id b → b ∈ map.order := by
  obtain ⟨-, finished⟩ := order_progress keys
  have taken (b : String) : b ∈ map.order.reverse ++ [] ↔ b ∈ map.order := by simp
  constructor
  · intro member
    exact ⟨finished.inside id ((taken id).mpr member), fun b refers =>
      List.mem_reverse.mp (finished.free id ((taken id).mpr member) b refers)⟩
  · rintro ⟨listed, all⟩
    exact (taken id).mp (finished.met id listed fun b refers => List.mem_reverse.mpr (all b refers))

/-! ## §6 Cycles -/

/-- Where no reference leads to a cycle, no chain of references goes on forever. -/
theorem acc_of_reaches_no_cycle
    (acyclic : ∀ b, Relation.ReflTransGen map.Refers id b → ¬ map.OnCycle b) :
    Acc (fun a b => map.Refers b a) id := by
  -- Only ids of the map are reached from another one, and those are finitely many.
  let Reached := {b : {b // b ∈ map.ids} // Relation.ReflTransGen map.Refers id b.1}
  have finite : Finite Reached := inferInstance
  have trans : IsTrans Reached fun a b => Relation.TransGen map.Refers b.1.1 a.1.1 :=
    ⟨fun _ _ _ first second => second.trans first⟩
  have irrefl : Std.Irrefl fun a b : Reached => Relation.TransGen map.Refers b.1.1 a.1.1 :=
    ⟨fun b => acyclic b.1.1 b.2⟩
  have wellFounded : WellFounded fun a b : Reached => Relation.TransGen map.Refers b.1.1 a.1.1 :=
    Finite.wellFounded_of_trans_of_irrefl _
  have below (b : Reached) : Acc (fun a b => map.Refers b a) b.1.1 := by
    induction wellFounded.apply b with
    | intro b _ ih =>
      exact .intro _ fun a refers =>
        ih ⟨⟨a, mem_ids_of_refers refers⟩, b.2.tail refers⟩ (.single refers)
  exact .intro _ fun a refers => below ⟨⟨a, mem_ids_of_refers refers⟩, .single refers⟩

theorem acc_of_acyclic (acyclic : ∀ b, ¬ map.OnCycle b) (id : String) :
    Acc (fun a b => map.Refers b a) id :=
  acc_of_reaches_no_cycle fun b _ => acyclic b

/-- What an id of the order refers to stands before it. -/
theorem idxOf_lt_of_refers (keys : map.keys.Nodup) (member : id ∈ map.order)
    (refers : map.Refers id other) :
    other ∈ map.order ∧ map.order.idxOf other < map.order.idxOf id := by
  obtain ⟨before, after, split⟩ := List.append_of_mem member
  have ready := ready_order keys
  rw [split] at ready
  have earlier : other ∈ before := by simpa using ready.free other refers
  have fresh : id ∉ before := by
    have nodup := order_nodup keys
    rw [split] at nodup
    exact fun again => (List.nodup_middle.mp nodup).notMem (List.mem_append_left after again)
  rw [split, List.idxOf_append_of_mem earlier, List.idxOf_append_of_notMem fresh]
  exact ⟨List.mem_append_left _ earlier,
    Nat.lt_of_lt_of_le (List.idxOf_lt_length_of_mem earlier) (Nat.le_add_right _ _)⟩

theorem idxOf_lt_of_reaches (keys : map.keys.Nodup) (member : id ∈ map.order)
    (reaches : Relation.TransGen map.Refers id other) :
    other ∈ map.order ∧ map.order.idxOf other < map.order.idxOf id := by
  induction reaches with
  | single refers => exact idxOf_lt_of_refers keys member refers
  | tail _ refers ih =>
    obtain ⟨later, before⟩ := idxOf_lt_of_refers keys ih.1 refers
    exact ⟨later, before.trans ih.2⟩

/-- **The order holds every id that leads to no cycle, and no other.** -/
theorem mem_order_iff (keys : map.keys.Nodup) :
    id ∈ map.order ↔
      id ∈ map.ids ∧ ∀ b, Relation.ReflTransGen map.Refers id b → ¬ map.OnCycle b := by
  constructor
  · refine fun member => ⟨((mem_order_iff_free keys).mp member).1, fun b reaches onCycle => ?_⟩
    have taken : b ∈ map.order := by
      rcases Relation.reflTransGen_iff_eq_or_transGen.mp reaches with rfl | reaches
      · exact member
      · exact (idxOf_lt_of_reaches keys member reaches).1
    exact absurd (idxOf_lt_of_reaches keys taken onCycle).2 (Nat.lt_irrefl _)
  · rintro ⟨listed, acyclic⟩
    -- All that the id refers to is in the order, by induction on the chains of references.
    induction acc_of_reaches_no_cycle acyclic with
    | intro id _ ih =>
      exact (mem_order_iff_free keys).mpr ⟨listed, fun b refers =>
        ih b refers (mem_ids_of_refers refers) fun c reaches => acyclic c (reaches.head refers)⟩

theorem mem_order_of_acyclic (keys : map.keys.Nodup) (acyclic : ∀ b, ¬ map.OnCycle b)
    (listed : id ∈ map.ids) : id ∈ map.order :=
  (mem_order_iff keys).mpr ⟨listed, fun b _ => acyclic b⟩

end BusinessCase.DependencyMap
