/-
BusinessCase.Proofs.Validation.Replacement — one formula hides nothing about
the others.

A formula is checked by itself, against the ids of the workbook and not against
what stands under them. So another text in its place changes what its own check
finds and which ids are on cycles, and no other problem, whatever else is wrong
with the workbook. The problems of formulas are, in workbook order, what each
check finds alone.

  §1 Slots — `Workbook.put`, a workbook with another text in one place.
  §2 Frame — `issues_put`, what is found elsewhere.
  §3 Whole — `validate_frame`.
-/
import BusinessCase.Proofs.Steps
import BusinessCase.Proofs.Validation.Faults
import BusinessCase.Proofs.Validation.Topics

namespace BusinessCase

open Formula

/-! ## §1 Slots -/

/-- Where a formula stands in a workbook: at a place among the metrics, or among the named ones. -/
inductive Slot where
  | metric (place : ℕ)
  | formula (place : ℕ)

namespace Workbook

/-- The formula in a slot, if there is one. -/
def entryAt? (w : Workbook) : Slot → Option Entry
  | .metric place => w.metrics[place]?.bind Metric.entry?
  | .formula place => w.formulas[place]?.map NamedFormula.entry

/-- The workbook with another text in a slot. A metric may be left without one; a named formula
always keeps one. -/
def put (w : Workbook) : Slot → Option String → Workbook
  | .metric place, text =>
    { w with metrics := w.metrics.modify place fun m => { m with formula := text } }
  | .formula place, text =>
    { w with formulas := w.formulas.modify place fun f =>
        { f with expression := text.getD f.expression } }

end Workbook

variable {limits : Limits} {w w' : Workbook} {slot : Slot} {text : Option String}

/-- What a change leaves alone is the same for all items. -/
theorem map_modify {β γ : Type} (items : List β) (place : ℕ) {f : β → β} {g : β → γ}
    (kept : ∀ item, g (f item) = g item) : (items.modify place f).map g = items.map g := by
  refine List.ext_getElem? fun i => ?_
  rw [List.getElem?_map, List.getElem?_map, List.getElem?_modify]
  cases items[i]? with
  | none => rfl
  | some item => by_cases here : place = i <;> simp [here, kept]

/-- What is made of the other items of a list stands around what is made of the changed one. -/
theorem exists_flatMap_modify {β γ : Type} (items : List β) (place : ℕ) (f : β → β)
    (g : β → List γ) :
    ∃ before after, items.flatMap g = before ++ items[place]?.elim [] g ++ after ∧
      (items.modify place f).flatMap g =
        before ++ (items[place]?.map f).elim [] g ++ after := by
  rcases lt_or_ge place items.length with inside | beyond
  · refine ⟨(items.take place).flatMap g, (items.drop (place + 1)).flatMap g, ?_, ?_⟩
    · have split : items = items.take place ++ items[place] :: items.drop (place + 1) := by
        rw [← List.drop_eq_getElem_cons inside, List.take_append_drop]
      conv_lhs => rw [split, List.flatMap_append, List.flatMap_cons]
      simp [inside]
    · rw [List.modify_eq_take_cons_drop inside]
      simp [inside]
  · refine ⟨items.flatMap g, [], ?_, ?_⟩
    · simp [List.getElem?_eq_none beyond]
    · simp [List.getElem?_eq_none beyond, List.modify_eq_self beyond]

theorem metricIds_put : (w.put slot text).metrics.map (·.id) = w.metrics.map (·.id) := by
  cases slot with
  | metric place => exact map_modify _ _ fun _ => rfl
  | formula place => rfl

theorem ids_put : (w.put slot text).ids = w.ids := by
  rw [Workbook.ids, Workbook.ids, metricIds_put]
  cases slot with
  | metric place => rfl
  | formula place => exact congrArg _ (map_modify _ _ fun _ => rfl)

theorem categories_put : (w.put slot text).categories = w.categories := by
  cases slot <;> rfl

/-! ## §2 Frame -/

/-- What the check of a formula finds by itself, where these ids are known. -/
def checkedAlone (limits : Limits) (known : List String) (entry : Entry) : List Issue :=
  (checkExpression limits known ⟨some entry.id, some entry.field⟩ (some entry.expression)).2.toList

/-- The problems of a workbook with another text in a slot are the same as before, in content and
order, but for what the check of the formula in the slot finds by itself and for a cycle. -/
def SameElsewhere (limits : Limits) (w w' : Workbook) (slot : Slot) (issues issues' : List Issue) :
    Prop :=
  ∃ before after,
    issues = before ++ (w.entryAt? slot).elim [] (checkedAlone limits w.ids) ++ after ++
      cycleIssues (w.cycle limits) ∧
    issues' = before ++ (w'.entryAt? slot).elim [] (checkedAlone limits w.ids) ++ after ++
      cycleIssues (w'.cycle limits)

theorem Category.issues_congr (ids : w'.metrics.map (·.id) = w.metrics.map (·.id)) :
    Category.issues w' = Category.issues w := by
  funext category
  rw [Category.issues, Category.issues, Category.strays, Category.strays, ids]

theorem Metric.categoryIssues_congr (categories : w'.categories = w.categories) :
    Metric.categoryIssues w' = Metric.categoryIssues w := by
  funext m
  rw [Metric.categoryIssues, Metric.categoryIssues, Metric.strangeCategory?,
    Metric.strangeCategory?, categories]

theorem Entry.issues_congr (ids : w'.ids = w.ids) :
    Entry.issues limits w' = Entry.issues limits w := by
  funext entry
  rw [Entry.issues, Entry.issues, Entry.check, Entry.check, ids]

/-- The problems of a workbook with another text in a slot, by the functions of the workbook. -/
theorem issues_put_eq (limits : Limits) (w : Workbook) (slot : Slot) (text : Option String) :
    (w.put slot text).issues limits =
      repeatedIdIssues [] w.ids ++ w.categories.flatMap (Category.issues w) ++
        (w.put slot text).metrics.flatMap (fun m =>
          m.issues ++ m.categoryIssues w ++ m.entry?.elim [] (checkedAlone limits w.ids)) ++
        (w.put slot text).formulas.flatMap (fun f => checkedAlone limits w.ids f.entry) ++
        cycleIssues ((w.put slot text).cycle limits) := by
  rw [Workbook.issues, ids_put, categories_put, Category.issues_congr metricIds_put,
    Metric.categoryIssues_congr categories_put, Entry.issues_congr ids_put]
  rfl

/-- **Another text in a slot changes nothing elsewhere.** -/
theorem issues_put (limits : Limits) (w : Workbook) (slot : Slot) (text : Option String) :
    SameElsewhere limits w (w.put slot text) slot (w.issues limits)
      ((w.put slot text).issues limits) := by
  set front := repeatedIdIssues [] w.ids ++ w.categories.flatMap (Category.issues w)
  set others := fun m : Metric => m.issues ++ m.categoryIssues w
  set ofMetric := fun m : Metric => others m ++ m.entry?.elim [] (checkedAlone limits w.ids)
    with ofMetric_eq
  set ofFormula := fun f : NamedFormula => checkedAlone limits w.ids f.entry with ofFormula_eq
  have whole : w.issues limits = front ++ w.metrics.flatMap ofMetric ++
      w.formulas.flatMap ofFormula ++ cycleIssues (w.cycle limits) := rfl
  have changed : (w.put slot text).issues limits =
      front ++ (w.put slot text).metrics.flatMap ofMetric ++
        (w.put slot text).formulas.flatMap ofFormula ++
        cycleIssues ((w.put slot text).cycle limits) := issues_put_eq limits w slot text
  cases slot with
  | metric place =>
    obtain ⟨before, after, given, made⟩ :=
      exists_flatMap_modify w.metrics place (fun m => { m with formula := text }) ofMetric
    -- The other problems of the metric stay, and stand in front of those of its formula.
    have kept (m : Metric) : others { m with formula := text } = others m := rfl
    refine ⟨front ++ before ++ w.metrics[place]?.elim [] others,
      after ++ w.formulas.flatMap ofFormula, ?_, ?_⟩
    · rw [whole, given, Workbook.entryAt?]
      cases w.metrics[place]? <;> simp [ofMetric_eq]
    · rw [changed, Workbook.put, made, Workbook.entryAt?, List.getElem?_modify_eq]
      cases w.metrics[place]? <;> simp [ofMetric_eq, kept]
  | formula place =>
    obtain ⟨before, after, given, made⟩ :=
      exists_flatMap_modify w.formulas place
        (fun f => { f with expression := text.getD f.expression }) ofFormula
    refine ⟨front ++ w.metrics.flatMap ofMetric ++ before, after, ?_, ?_⟩
    · rw [whole, given, Workbook.entryAt?]
      cases w.formulas[place]? <;> simp [ofFormula_eq]
    · rw [changed, Workbook.put, made, Workbook.entryAt?, List.getElem?_modify_eq]
      cases w.formulas[place]? <;> simp [ofFormula_eq]

/-! ## §3 Whole -/

/-- Under safe limits nothing but the category of a metric stops a validation. -/
theorem faults_eq_of_safe (safe : limits.inner.inner.Safe) (w : Workbook) :
    w.faults limits = w.metrics.flatMap fun m => (m.categoryFault? w).toList := by
  have entries (m : Metric) : m.entry?.bind (Entry.fault? limits) = none :=
    Option.bind_eq_none_iff.mpr fun entry _ => fault?_eq_none safe entry
  have formulas : (w.formulas.filterMap fun f => f.entry.fault? limits) = [] :=
    List.filterMap_eq_nil_iff.mpr fun f _ => fault?_eq_none safe f.entry
  simp [Workbook.faults, entries, formulas]

/-- What stops the look-up of a category has nothing to do with formulas. -/
theorem faults_put (safe : limits.inner.inner.Safe) :
    (w.put slot text).faults limits = w.faults limits := by
  have faults_eq : Metric.categoryFault? (w.put slot text) = Metric.categoryFault? w := by
    funext m
    rw [Metric.categoryFault?, Metric.categoryFault?, Metric.strangeCategory?,
      Metric.strangeCategory?, categories_put]
  rw [faults_eq_of_safe safe, faults_eq_of_safe safe, faults_eq]
  cases slot with
  | metric place =>
    have kept := map_modify w.metrics place (f := fun m => { m with formula := text })
      (g := fun m => (m.categoryFault? w).toList) fun _ => rfl
    rw [List.flatMap_def, List.flatMap_def]
    exact congrArg List.flatten kept
  | formula place => rfl

/-- **One formula hides nothing about the others, for all workbooks, slots, texts and limits.**
Where a validation comes to an end for a workbook with one text and with another in a slot, all
problems are the same, in content and order, but for the problem of the formula in the slot and
for that of a cycle. The problems of formulas are what the check of each finds by itself, with the
ids of the workbook known, however many there are. Under safe limits both validations are stopped
by the same fault, or both come to an end. -/
theorem validate_frame (limits : Limits) (w : Workbook) (slot : Slot) (text : Option String) :
    (∀ issues issues', w.validate limits = .ok issues →
      (w.put slot text).validate limits = .ok issues' →
      SameElsewhere limits w (w.put slot text) slot issues issues') ∧
    (∀ issues, w.validate limits = .ok issues →
      issuesAbout .formula issues =
        w.formulaEntries.flatMap fun entry =>
          (checkExpression limits w.ids ⟨some entry.id, some entry.field⟩
            (some entry.expression)).2.toList) ∧
    (limits.inner.inner.Safe →
      Agrees (SameElsewhere limits w (w.put slot text) slot) (w.validate limits)
        ((w.put slot text).validate limits)) := by
  refine ⟨?_, ?_, ?_⟩
  · intro issues issues' ended ended'
    obtain ⟨-, rfl⟩ := validate_eq_ok_iff.mp ended
    obtain ⟨-, rfl⟩ := validate_eq_ok_iff.mp ended'
    exact issues_put limits w slot text
  · intro issues ended
    obtain ⟨-, rfl⟩ := validate_eq_ok_iff.mp ended
    exact issuesAbout_issues .formula limits w
  · intro safe
    rw [Workbook.validate, Workbook.validate, faults_put safe]
    cases (w.faults limits).head? with
    | some fault => exact .error fault
    | none => exact .ok (issues_put limits w slot text)

/-- Two formulas that were left blank. -/
def blankWorkbook : Workbook :=
  { metrics := [⟨"x", "x", none, some 1, none, none, .null, .null⟩]
    formulas := [⟨"y", "y", ""⟩, ⟨"z", "z", " "⟩]
    categories := [] }

/-- A character that starts nothing in one of them leaves the problem of the other. -/
theorem validate_frame_blank :
    ∃ issues issues',
      blankWorkbook.validate {} = .ok issues ∧
      (blankWorkbook.put (.formula 1) (some "#")).validate {} = .ok issues' ∧
      SameElsewhere {} blankWorkbook (blankWorkbook.put (.formula 1) (some "#")) (.formula 1)
        issues issues' ∧
      (issuesAbout .formula issues).map (·.kind) = [.emptyExpression, .emptyExpression] ∧
      (issuesAbout .formula issues').map (·.kind) = [.emptyExpression, .lexError] ∧
      Agrees (SameElsewhere {} blankWorkbook (blankWorkbook.put (.formula 1) (some "#"))
        (.formula 1)) (blankWorkbook.validate {})
        ((blankWorkbook.put (.formula 1) (some "#")).validate {}) := by
  set marked := blankWorkbook.put (.formula 1) (some "#")
  have ended : blankWorkbook.validate {} = .ok (blankWorkbook.issues {}) :=
    validate_eq_ok_iff.mpr ⟨by decide +kernel, rfl⟩
  have ended' : marked.validate {} = .ok (marked.issues {}) :=
    validate_eq_ok_iff.mpr ⟨by decide +kernel, rfl⟩
  have safe : (Limits.inside 2 {}).Safe := safe_inside (by decide)
  obtain ⟨frame, alone, agrees⟩ := validate_frame {} blankWorkbook (.formula 1) (some "#")
  obtain ⟨-, alone', -⟩ := validate_frame {} marked (.formula 1) none
  refine ⟨_, _, ended, ended', frame _ _ ended ended', ?_, ?_, agrees safe⟩
  · rw [alone _ ended]
    decide +kernel
  · rw [alone' _ ended']
    decide +kernel

end BusinessCase
