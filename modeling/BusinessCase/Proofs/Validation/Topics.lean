/-
BusinessCase.Proofs.Validation.Topics — what a problem is about.

Every problem names the field that it is about, and each rule of a validation
names fields that no other rule names. So the problems of one topic are those
that its rule finds, in workbook order, whatever else is wrong.

  §1 Topics — `Topic`, the fields of a topic; `issuesAbout`.
  §2 Rules  — the topic of each rule.
  §3 Whole  — `issuesAbout_issues`.
-/
import BusinessCase.Proofs.Validation.Workbook

namespace BusinessCase

open Formula

variable {limits : Limits} {w : Workbook} {topic : Topic} {issues : List Issue}

/-! ## §1 Topics -/

/-- What a problem of a workbook can be about. -/
inductive Topic where
  /-- Repeated ids and cycles, which are about no field. -/
  | whole
  /-- The metrics that a category lists. -/
  | listing
  /-- The value or the estimate of a metric. -/
  | value
  /-- The category that a metric names. -/
  | naming
  /-- A formula. -/
  | formula
  deriving DecidableEq

/-- The fields of a topic. -/
def Topic.fields : Topic → List (Option String)
  | whole => [none]
  | listing => [some "metricIds"]
  | value => [some "value", some "min", some "mode", some "max"]
  | naming => [some "categoryId"]
  | formula => [some "formula", some "expression"]

/-- Every problem of the list is about that topic. -/
def AboutOnly (topic : Topic) (issues : List Issue) : Prop :=
  ∀ issue ∈ issues, issue.field ∈ topic.fields

/-- The problems about a topic. -/
def issuesAbout (topic : Topic) (issues : List Issue) : List Issue :=
  issues.filter fun issue => topic.fields.contains issue.field

/-- Topics share no field. -/
theorem Topic.eq_of_mem_fields {first second : Topic} {field : Option String}
    (h : field ∈ first.fields) (h' : field ∈ second.fields) : first = second := by
  cases first <;> cases second <;> simp only [Topic.fields] at h h' ⊢ <;> grind

theorem aboutOnly_nil : AboutOnly topic [] := List.forall_mem_nil _

theorem aboutOnly_singleton {issue : Issue} (h : issue.field ∈ topic.fields) :
    AboutOnly topic [issue] :=
  List.forall_mem_singleton.mpr h

theorem AboutOnly.append {first second : List Issue} (h : AboutOnly topic first)
    (h' : AboutOnly topic second) : AboutOnly topic (first ++ second) :=
  List.forall_mem_append.mpr ⟨h, h'⟩

/-- Of problems about one topic, a topic has all or none. -/
theorem AboutOnly.issuesAbout_eq (h : AboutOnly topic issues) (other : Topic) :
    issuesAbout other issues = if other = topic then issues else [] := by
  split
  · next same =>
    rw [same, issuesAbout, List.filter_eq_self]
    intro issue member
    simpa using h issue member
  · next apart =>
    rw [issuesAbout, List.filter_eq_nil_iff]
    intro issue member
    simpa using fun among => apart (Topic.eq_of_mem_fields among (h issue member))

theorem issuesAbout_append (topic : Topic) (first second : List Issue) :
    issuesAbout topic (first ++ second) = issuesAbout topic first ++ issuesAbout topic second :=
  List.filter_append first second

theorem issuesAbout_flatMap {β : Type} (topic : Topic) (items : List β) (f : β → List Issue) :
    issuesAbout topic (items.flatMap f) = items.flatMap fun item => issuesAbout topic (f item) :=
  List.filter_flatMap

/-! ## §2 Rules -/

theorem aboutOnly_repeatedIdIssues (seen ids : List String) :
    AboutOnly .whole (repeatedIdIssues seen ids) := by
  induction ids generalizing seen with
  | nil => exact aboutOnly_nil
  | cons id rest ih =>
    refine AboutOnly.append ?_ (ih (id :: seen))
    split
    · exact aboutOnly_singleton (by simp [Topic.fields])
    · exact aboutOnly_nil

theorem aboutOnly_category (w : Workbook) (category : Category) :
    AboutOnly .listing (category.issues w) := by
  rw [Category.issues]
  split
  · exact aboutOnly_nil
  · exact aboutOnly_singleton (by simp [Topic.fields])

theorem aboutOnly_orderIssues (id : String) (d : Distribution Float) :
    AboutOnly .value (orderIssues id d) := by
  have min (message : String) : AboutOnly .value [boundIssue id "min" message] :=
    aboutOnly_singleton (by simp [boundIssue, Topic.fields])
  have max (message : String) : AboutOnly .value [boundIssue id "max" message] :=
    aboutOnly_singleton (by simp [boundIssue, Topic.fields])
  unfold orderIssues
  split
  · exact (min _).append (max _)
  · refine AboutOnly.append ?_ ?_ <;> split
    · exact min _
    · exact aboutOnly_nil
    · exact max _
    · exact aboutOnly_nil

theorem aboutOnly_distribution (id : String) (d : Distribution Float) :
    AboutOnly .value (d.issues id) := by
  unfold Distribution.issues
  dsimp only
  split
  · exact aboutOnly_orderIssues id d
  · refine List.forall_mem_map.mpr fun bound missing => ?_
    have among : bound ∈ [("min", d.low), ("mode", d.mode), ("max", d.high)] :=
      List.mem_of_mem_filter missing
    simp only [List.mem_cons, List.not_mem_nil, or_false] at among
    rcases among with rfl | rfl | rfl <;> simp [boundIssue, Topic.fields]

theorem aboutOnly_metric (m : Metric) : AboutOnly .value m.issues := by
  refine AboutOnly.append ?_ ?_
  · cases m.value with
    | none => exact aboutOnly_nil
    | some x =>
      rw [Option.elim_some, valueIssues]
      split
      · exact aboutOnly_nil
      · exact aboutOnly_singleton (by simp [Topic.fields])
  · cases m.distribution with
    | none => exact aboutOnly_nil
    | some d => exact aboutOnly_distribution m.id d

theorem aboutOnly_metricCategory (w : Workbook) (m : Metric) :
    AboutOnly .naming (m.categoryIssues w) := by
  rw [Metric.categoryIssues]
  split
  · exact aboutOnly_nil
  · exact aboutOnly_singleton (by simp [Topic.fields])

theorem aboutOnly_cycleIssues (cycle : List String) : AboutOnly .whole (cycleIssues cycle) := by
  rw [cycleIssues]
  split
  · exact aboutOnly_nil
  · exact aboutOnly_singleton (by simp [Topic.fields])

theorem aboutOnly_entry {entry : Entry} (field : some entry.field ∈ Topic.formula.fields) :
    AboutOnly .formula (entry.issues limits w) := by
  intro issue found
  obtain ⟨kind, message, offset, -, rfl⟩ := checkExpression_made (Option.mem_toList.mp found)
  exact field

theorem aboutOnly_metricEntry (limits : Limits) (w : Workbook) (m : Metric) :
    AboutOnly .formula (m.entry?.elim [] (Entry.issues limits w)) := by
  cases given : m.entry? with
  | none => exact aboutOnly_nil
  | some entry =>
    obtain ⟨text, -, rfl⟩ := Option.map_eq_some_iff.mp given
    exact aboutOnly_entry (by simp [Topic.fields])

theorem aboutOnly_formula (limits : Limits) (w : Workbook) (f : NamedFormula) :
    AboutOnly .formula (f.entry.issues limits w) :=
  aboutOnly_entry (by simp [Topic.fields, NamedFormula.entry])

/-! ## §3 Whole -/

/-- The problems that the rule for a topic finds. -/
def Topic.found (limits : Limits) (w : Workbook) : Topic → List Issue
  | whole => repeatedIdIssues [] w.ids ++ cycleIssues (w.cycle limits)
  | listing => w.categories.flatMap (Category.issues w)
  | value => w.metrics.flatMap Metric.issues
  | naming => w.metrics.flatMap (Metric.categoryIssues w)
  | formula => w.formulaEntries.flatMap (Entry.issues limits w)

theorem flatMap_formulaEntries {β : Type} (w : Workbook) (f : Entry → List β) :
    w.formulaEntries.flatMap f =
      w.metrics.flatMap (fun m => m.entry?.elim [] f) ++
        w.formulas.flatMap fun formula => f formula.entry := by
  have metric (m : Metric) : m.entry?.toList.flatMap f = m.entry?.elim [] f := by
    cases m.entry? with
    | none => rfl
    | some entry => exact List.flatMap_singleton f entry
  rw [Workbook.formulaEntries, List.flatMap_append, List.filterMap_eq_flatMap_toList,
    List.flatMap_assoc, List.flatMap_map, funext metric]

/-- **The problems about a topic are those that its rule finds**, in workbook order. -/
theorem issuesAbout_issues (topic : Topic) (limits : Limits) (w : Workbook) :
    issuesAbout topic (w.issues limits) = topic.found limits w := by
  have nothing {β : Type} (items : List β) : items.flatMap (fun _ => ([] : List Issue)) = [] :=
    List.flatMap_eq_nil_iff.mpr fun _ _ => rfl
  simp only [Workbook.issues, issuesAbout_append, issuesAbout_flatMap,
    (aboutOnly_repeatedIdIssues _ _).issuesAbout_eq, (aboutOnly_category w _).issuesAbout_eq,
    (aboutOnly_metric _).issuesAbout_eq, (aboutOnly_metricCategory w _).issuesAbout_eq,
    (aboutOnly_metricEntry limits w _).issuesAbout_eq,
    (aboutOnly_formula limits w _).issuesAbout_eq, (aboutOnly_cycleIssues _).issuesAbout_eq]
  cases topic <;> simp [Topic.found, flatMap_formulaEntries, nothing]

end BusinessCase
