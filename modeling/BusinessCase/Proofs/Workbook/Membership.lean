/-
BusinessCase.Proofs.Workbook.Membership — which metrics belong to a category.

A payload links metrics and categories by ids in two ways: a metric names its
category, a category lists its metrics. An id loses the blanks around it where
it is declared and keeps them where it is mentioned. So a mention is followed
exactly if its id has no blanks around it, and any other one is reported as
unknown.

  §1 Texts    — `Text.Trimmed`.
  §2 Payload  — `Declares`, `NamesCategory`, `ListsMetric`.
  §3 Mentions — mentions in a workbook that has been read.
  §4 Whole    — `mentions_exact`.
-/
import Mathlib.Data.List.DropRight
import BusinessCase.Proofs.Steps
import BusinessCase.Proofs.Validation.Faults
import BusinessCase.Proofs.Validation.Topics
import BusinessCase.Proofs.Workbook.Payload

namespace BusinessCase

/-! ## §1 Texts -/

namespace Text

/-- There are no blanks around the text. -/
def Trimmed (s : String) : Prop := strip s = s

instance (s : String) : Decidable (Trimmed s) := inferInstanceAs (Decidable (strip s = s))

theorem Trimmed.eq {s : String} (h : Trimmed s) : strip s = s := h

theorem stripChars_eq (p : Char → Bool) (cs : List Char) :
    stripChars p cs = (cs.dropWhile p).rdropWhile p := rfl

/-- What is left starts with nothing that is cut off. -/
theorem dropWhile_stripChars (p : Char → Bool) (cs : List Char) :
    (stripChars p cs).dropWhile p = stripChars p cs := by
  refine List.dropWhile_eq_self_iff.mpr fun nonempty => ?_
  have isPrefix : stripChars p cs <+: cs.dropWhile p := List.rdropWhile_prefix p _
  rw [isPrefix.getElem nonempty]
  exact List.dropWhile_get_zero_not p cs (nonempty.trans_le isPrefix.length_le)

theorem trimmed_strip (s : String) : Trimmed (strip s) := by
  have twice (cs : List Char) :
      stripChars isBlank (stripChars isBlank cs) = stripChars isBlank cs := by
    rw [stripChars_eq _ (stripChars isBlank cs), dropWhile_stripChars, stripChars_eq,
      List.rdropWhile_idempotent]
  rw [Trimmed, strip, strip, String.toList_ofList, twice]

/-- Blanks cannot be cut off an empty text. -/
theorem isEmpty_of_strip {s : String} (nonempty : (strip s).isEmpty = false) :
    s.isEmpty = false := by
  cases empty : s.isEmpty with
  | false => rfl
  | true =>
    rw [String.isEmpty_iff.mp empty] at nonempty
    exact absurd nonempty (by decide)

end Text

namespace Workbook

open Text (Trimmed)

variable {w : Workbook} {m : Metric} {c : Category} {entry group fields : Fields} {id : String}

/-! ## §2 Payload -/

/-- The objects in a list of a payload, none where there is no list of objects. -/
def listed (payload : Value) (field : String) : List Fields :=
  match payload with
  | .object fields => (entries fields field).toOption.getD []
  | _ => []

/-- The entry gives itself that id. -/
def Declares (entry : Fields) (id : String) : Prop := Value.fieldOrNull entry "id" = .text id

/-- The metric names its category by that id. -/
def NamesCategory (entry : Fields) (id : String) : Prop :=
  Value.firstField entry ["categoryId", "category_id"] = .text id

/-- The category lists a metric by that id. -/
def ListsMetric (group : Fields) (id : String) : Prop :=
  ∃ items, Value.firstField group ["metricIds", "metric_ids"] = .list items ∧ .text id ∈ items

/-- What is read from the lists of a payload. -/
theorem mapM_listed {payload : Value} (read : ofValue payload = .ok w) :
    (listed payload "metrics").mapM metricOf = .ok w.metrics ∧
      (listed payload "categories").mapM categoryOf = .ok w.categories := by
  obtain ⟨fields, metrics, categories, rfl, found, made, found', made'⟩ := parts_of_ofValue read
  rw [listed, listed, found, found']
  exact ⟨made, made'⟩

/-- An id is what is left of a declared one without the blanks around it, and is not empty. -/
theorem requireId_eq_ok {what : String} (read : requireId fields what = .ok id) :
    ∃ given, Declares fields given ∧ id = Text.strip given ∧ id.isEmpty = false := by
  unfold requireId at read
  split at read
  · next given declared =>
    dsimp only at read
    split at read
    · cases read
    · next nonempty =>
      cases read
      exact ⟨given, declared, rfl, by simpa using nonempty⟩
  · cases read

/-- The id and the metrics of a category are those of its entry. -/
theorem parts_of_categoryOf (read : categoryOf group = .ok c) :
    requireId group "category" = .ok c.id ∧
      (let listed := Value.firstField group ["metricIds", "metric_ids"]
        if listed.isTruthy then listed.texts? else some []) = some c.metricIds := by
  obtain ⟨id, declared, read⟩ := bind_eq_ok read
  dsimp only at read
  split at read
  · cases read
  · split at read
    · cases read
    · next metricIds texts =>
      obtain ⟨name, -, made⟩ := map_eq_ok read
      subst made
      exact ⟨declared, texts⟩

theorem texts?_eq_some {items : List Value} {ids : List String}
    (texts : items.mapM Value.text? = some ids) : items = ids.map .text := by
  induction items generalizing ids with
  | nil =>
    cases texts
    rfl
  | cons item rest ih =>
    rw [List.mapM_cons] at texts
    obtain ⟨id, own, texts⟩ := Option.bind_eq_some_iff.mp texts
    obtain ⟨others, more, texts⟩ := Option.bind_eq_some_iff.mp texts
    cases texts
    cases item with
    | text given =>
      cases own
      rw [List.map_cons, ih more]
    | _ => cases own

/-- A category lists what its entry lists. -/
theorem mem_metricIds_iff (read : categoryOf group = .ok c) :
    id ∈ c.metricIds ↔ ListsMetric group id := by
  have texts := (parts_of_categoryOf read).2
  dsimp only at texts
  rw [ListsMetric]
  split at texts
  · next truthy =>
    cases given : Value.firstField group ["metricIds", "metric_ids"] with
    | list items =>
      rw [given] at texts
      rw [texts?_eq_some texts]
      simp
    | _ =>
      rw [given] at texts
      cases texts
  · next falsy =>
    have nothing : c.metricIds = [] := (Option.some.inj texts).symm
    rw [nothing]
    refine iff_of_false List.not_mem_nil ?_
    rintro ⟨items, given, member⟩
    rw [given, Value.isTruthy] at falsy
    have empty : items = [] := by simpa using falsy
    rw [empty] at member
    cases member

/-! ## §3 Mentions -/

theorem names_iff : m.names c ↔ m.categoryId = .text c.id := by
  rw [Metric.names]
  cases m.categoryId <;> simp

theorem mem_members_iff (among : m ∈ w.metrics) :
    m ∈ w.members c ↔ m.categoryId = .text c.id ∨ m.id ∈ c.metricIds := by
  rw [members, List.mem_filter, Bool.or_eq_true, names_iff, List.contains_iff_mem, or_comm]
  exact and_iff_right among

/-- A category that a metric names is reported exactly if the workbook does not have it. -/
theorem categoryIssues_eq_nil_iff (named : m.categoryId = .text id)
    (nonempty : id.isEmpty = false) :
    m.categoryIssues w = [] ↔ ∃ c ∈ w.categories, c.id = id := by
  have known : w.categories.any m.names ↔ ∃ c ∈ w.categories, c.id = id := by
    rw [List.any_eq_true]
    refine exists_congr fun c => and_congr_right fun _ => ?_
    rw [names_iff, named, Value.text.injEq, eq_comm]
  have truthy : m.categoryId.isTruthy := by rw [named, Value.isTruthy, nonempty, Bool.not_false]
  rw [← known, Metric.categoryIssues, Metric.strangeCategory?, truthy]
  cases w.categories.any m.names <;> simp

theorem not_mem_strays_iff (listed : id ∈ c.metricIds) :
    id ∉ c.strays w ↔ ∃ m ∈ w.metrics, m.id = id := by
  simp [Category.strays, listed]

/-- The ids of a workbook that has been read have no blanks around them. -/
theorem trimmed_ids {payload : Value} (read : ofValue payload = .ok w) :
    (∀ m ∈ w.metrics, Trimmed m.id) ∧ ∀ c ∈ w.categories, Trimmed c.id := by
  obtain ⟨metrics, categories⟩ := mapM_listed read
  constructor
  · intro m member
    obtain ⟨entry, -, own⟩ := exists_of_mem_mapM metrics member
    obtain ⟨given, -, id, -⟩ := requireId_eq_ok (parts_of_metricOf own).1
    rw [id]
    exact Text.trimmed_strip given
  · intro c member
    obtain ⟨group, -, own⟩ := exists_of_mem_mapM categories member
    obtain ⟨given, -, id, -⟩ := requireId_eq_ok (parts_of_categoryOf own).1
    rw [id]
    exact Text.trimmed_strip given

/-! ## §4 Whole -/

/-- A metric belongs to a category exactly if the payload mentions one in the entry of the other by
the id that is left once the blanks around it are cut off. -/
theorem mem_members_iff_mentioned (among : m ∈ w.metrics) (ofMetric : metricOf entry = .ok m)
    (ofCategory : categoryOf group = .ok c) :
    m ∈ w.members c ↔
      (∃ id, Declares group id ∧ NamesCategory entry (Text.strip id)) ∨
        ∃ id, Declares entry id ∧ ListsMetric group (Text.strip id) := by
  obtain ⟨metricId, declared, stripped, -⟩ := requireId_eq_ok (parts_of_metricOf ofMetric).1
  obtain ⟨categoryId, declared', stripped', -⟩ := requireId_eq_ok (parts_of_categoryOf ofCategory).1
  have only {given : String} (also : Declares entry given) : given = metricId :=
    Value.text.inj (also.symm.trans declared)
  have only' {given : String} (also : Declares group given) : given = categoryId :=
    Value.text.inj (also.symm.trans declared')
  rw [mem_members_iff among, mem_metricIds_iff ofCategory, (parts_of_metricOf ofMetric).2,
    stripped, stripped']
  refine or_congr ⟨fun named => ⟨categoryId, declared', named⟩, ?_⟩
    ⟨fun lists => ⟨metricId, declared, lists⟩, ?_⟩
  · rintro ⟨given, also, named⟩
    rwa [only' also] at named
  · rintro ⟨given, also, lists⟩
    rwa [only also] at lists

/-- A category that a metric names is known exactly if no blanks stand around its id. -/
theorem categoryIssues_eq_nil_iff_trimmed {payload : Value} (read : ofValue payload = .ok w)
    (among : c ∈ w.categories) (ofMetric : metricOf entry = .ok m)
    (ofCategory : categoryOf group = .ok c) (named : NamesCategory entry id)
    (declared : Declares group id) : m.categoryIssues w = [] ↔ Trimmed id := by
  obtain ⟨given, also, stripped, nonempty⟩ := requireId_eq_ok (parts_of_categoryOf ofCategory).1
  obtain rfl : given = id := Value.text.inj (also.symm.trans declared)
  -- No category has an id with blanks around it, so such a mention finds none.
  have namedId : m.categoryId = .text given := (parts_of_metricOf ofMetric).2.trans named
  rw [stripped] at nonempty
  rw [categoryIssues_eq_nil_iff namedId (Text.isEmpty_of_strip nonempty)]
  constructor
  · rintro ⟨other, member, rfl⟩
    exact (trimmed_ids read).2 other member
  · intro trimmed
    exact ⟨c, among, stripped.trans trimmed⟩

/-- A metric that a category lists is known exactly if no blanks stand around its id. -/
theorem not_mem_strays_iff_trimmed {payload : Value} (read : ofValue payload = .ok w)
    (among : m ∈ w.metrics) (ofMetric : metricOf entry = .ok m)
    (ofCategory : categoryOf group = .ok c) (lists : ListsMetric group id)
    (declared : Declares entry id) : id ∉ c.strays w ↔ Trimmed id := by
  obtain ⟨given, also, stripped, -⟩ := requireId_eq_ok (parts_of_metricOf ofMetric).1
  obtain rfl : given = id := Value.text.inj (also.symm.trans declared)
  rw [not_mem_strays_iff ((mem_metricIds_iff ofCategory).mpr lists)]
  constructor
  · rintro ⟨other, member, rfl⟩
    exact (trimmed_ids read).1 other member
  · intro trimmed
    exact ⟨m, among, stripped.trans trimmed⟩

/-- **Which mentions of a payload are followed, for all payloads that are read.** A metric belongs
to a category exactly if the entry of one mentions the other by the id that is left once the blanks
around it are cut off. So a mention that repeats the id as it is declared is followed if there are
no blanks around the id. Then neither an unknown category nor an unknown metric is reported for it,
and otherwise one is. A validation reports nothing else about mentions. -/
theorem mentions_exact {payload : Value} (read : ofValue payload = .ok w)
    (limits : Formula.Limits) :
    (∀ (i j : ℕ) (entry group : Fields), (listed payload "metrics")[i]? = some entry →
      (listed payload "categories")[j]? = some group →
      ∃ m c, w.metrics[i]? = some m ∧ w.categories[j]? = some c ∧
        (m ∈ w.members c ↔
          (∃ id, Declares group id ∧ NamesCategory entry (Text.strip id)) ∨
            ∃ id, Declares entry id ∧ ListsMetric group (Text.strip id)) ∧
        (∀ id, NamesCategory entry id → Declares group id →
          (Trimmed id → m ∈ w.members c) ∧ (m.categoryIssues w = [] ↔ Trimmed id)) ∧
        ∀ id, ListsMetric group id → Declares entry id →
          (Trimmed id → m ∈ w.members c) ∧ (id ∉ c.strays w ↔ Trimmed id)) ∧
    ∀ issues, w.validate limits = .ok issues →
      issuesAbout .naming issues = w.metrics.flatMap (Metric.categoryIssues w) ∧
        issuesAbout .listing issues = w.categories.flatMap (Category.issues w) := by
  constructor
  · intro i j entry group atMetric atCategory
    obtain ⟨metrics, categories⟩ := mapM_listed read
    obtain ⟨m, place, ofMetric⟩ := getElem?_of_mapM metrics atMetric
    obtain ⟨c, place', ofCategory⟩ := getElem?_of_mapM categories atCategory
    have among := List.mem_of_getElem? place
    have among' := List.mem_of_getElem? place'
    have members := mem_members_iff_mentioned among ofMetric ofCategory
    refine ⟨m, c, place, place', members, fun id named declared => ⟨fun trimmed => ?_, ?_⟩,
      fun id lists declared => ⟨fun trimmed => ?_, ?_⟩⟩
    · exact members.mpr (.inl ⟨id, declared, by rwa [trimmed.eq]⟩)
    · exact categoryIssues_eq_nil_iff_trimmed read among' ofMetric ofCategory named declared
    · exact members.mpr (.inr ⟨id, declared, by rwa [trimmed.eq]⟩)
    · exact not_mem_strays_iff_trimmed read among ofMetric ofCategory lists declared
  · intro issues ended
    obtain ⟨-, rfl⟩ := validate_eq_ok_iff.mp ended
    exact ⟨issuesAbout_issues .naming limits w, issuesAbout_issues .listing limits w⟩

/-- A metric that names a category and one that the category lists, by ids that are declared in just
the same way. -/
def linkedPayload (categoryId metricId : String) : Value :=
  .object [
    ("metrics", .list [
      .object [("id", .text "fee"), ("categoryId", .text categoryId)],
      .object [("id", .text metricId)]]),
    ("categories", .list [
      .object [("id", .text categoryId), ("type", .text "benefit"),
        ("metricIds", .list [.text metricId])]])]

/-- The workbook of that payload. -/
def linkedWorkbook (categoryId metricId : String) : Workbook :=
  { metrics := [
      ⟨"fee", "fee", none, none, none, none, .text categoryId, .null⟩,
      ⟨Text.strip metricId, Text.strip metricId, none, none, none, none, .null, .null⟩]
    formulas := []
    categories := [
      ⟨Text.strip categoryId, Text.strip categoryId, .benefit, [metricId], .null⟩] }

/-- Both metrics belong to the category where no blanks stand around the ids. -/
theorem mentions_exact_linked :
    let w := linkedWorkbook "income" "rent"
    ofValue (linkedPayload "income" "rent") = .ok w ∧
      (∃ m m' c, w.metrics = [m, m'] ∧ w.categories = [c] ∧ m ∈ w.members c ∧ m' ∈ w.members c ∧
        m.categoryIssues w = [] ∧ "rent" ∉ c.strays w) ∧
      ∃ issues, w.validate {} = .ok issues ∧ issuesAbout .naming issues = [] := by
  intro w
  have read : ofValue (linkedPayload "income" "rent") = .ok w := rfl
  obtain ⟨mentions, reports⟩ := mentions_exact read {}
  obtain ⟨m, c, place, place', -, naming, -⟩ := mentions 0 0 _ _ rfl rfl
  obtain ⟨m', c', atNext, atSame, -, -, listing⟩ := mentions 1 0 _ _ rfl rfl
  cases place
  cases place'
  cases atNext
  cases atSame
  have income : Trimmed "income" := by decide +kernel
  have rent : Trimmed "rent" := by decide +kernel
  obtain ⟨named, known⟩ := naming "income" rfl rfl
  obtain ⟨lists, known'⟩ := listing "rent" ⟨_, rfl, List.mem_cons_self⟩ rfl
  have ended : w.validate {} = .ok (w.issues {}) :=
    validate_eq_ok_iff.mpr ⟨by decide +kernel, rfl⟩
  refine ⟨read, ⟨_, _, _, rfl, rfl, named income, lists rent, known.mpr income, known'.mpr rent⟩, _,
    ended, ?_⟩
  rw [(reports _ ended).1]
  decide +kernel

/-- **Blanks around the ids lose both metrics.** -/
theorem mentions_lost :
    let w := linkedWorkbook " income " " rent "
    ofValue (linkedPayload " income " " rent ") = .ok w ∧
      ∃ m m' c, w.metrics = [m, m'] ∧ w.categories = [c] ∧ m ∉ w.members c ∧ m' ∉ w.members c ∧
        m.categoryIssues w ≠ [] ∧ " rent " ∈ c.strays w := by
  intro w
  have nobody (c : Category) (none_left : w.members c = []) (m : Metric) : m ∉ w.members c := by
    simp [none_left]
  refine ⟨rfl, _, _, _, rfl, rfl, nobody _ ?_ _, nobody _ ?_ _, ?_, ?_⟩ <;> decide +kernel

end Workbook

end BusinessCase
