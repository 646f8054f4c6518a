/-
BusinessCase.Proofs.Validation.Faults — when a validation comes to an end.

Two things stop a validation: a category id that cannot be looked up or shown,
and limits so high that a reading leaves the stack. Where neither is there, the
problems found decide about the workbook.

  §1 Faults — `faults_eq_nil`.
  §2 Whole  — `validate_exact`.
  §3 Limits — a workbook that high limits leave undecided.
-/
import BusinessCase.Proofs.Formula.Room
import BusinessCase.Proofs.Validation.Workbook

namespace BusinessCase

open Formula

variable {limits : Limits} {w : Workbook}

/-! ## §1 Faults -/

/-- The metric names its category by a text, or names none. -/
def Metric.NamesByText (m : Metric) : Prop := m.categoryId = .null ∨ ∃ id, m.categoryId = .text id

theorem Metric.NamesByText.isKey {m : Metric} (named : m.NamesByText) :
    m.categoryId.isKey ∧ m.categoryId.isShown := by
  rcases named with id | ⟨text, id⟩ <;> simp [id, Value.isKey, Value.isShown]

theorem categoryFault?_eq_none {m : Metric}
    (named : m.categoryId.isKey ∧ m.categoryId.isShown) : m.categoryFault? w = none := by
  simp [Metric.categoryFault?, named.1, named.2]

/-- The check of a formula takes a place more than its caller has taken. -/
theorem checkStop?_eq_none (safe : limits.inner.Safe) (expression : Option String) :
    checkStop? limits expression = none := by
  rw [checkStop?]
  cases expression.filter fun text => !Text.isAllBlank text with
  | none => rfl
  | some text => exact readStop?_eq_none safe text

theorem fault?_eq_none (safe : limits.inner.inner.Safe) (entry : Entry) :
    entry.fault? limits = none := by
  rw [Entry.fault?, checkStop?_eq_none safe]
  rfl

/-- Nothing stops a validation exactly if nothing stops the look-up of a category, or the check of a
formula. -/
theorem faults_eq_nil_iff : w.faults limits = [] ↔
    (∀ m ∈ w.metrics, m.categoryFault? w = none) ∧
      ∀ entry ∈ w.formulaEntries, entry.fault? limits = none := by
  rw [Workbook.faults, List.append_eq_nil_iff, List.flatMap_eq_nil_iff, List.filterMap_eq_nil_iff,
    forall_formulaEntries_iff]
  simp only [List.append_eq_nil_iff, Option.toList_eq_nil_iff, Option.bind_eq_none_iff]
  constructor
  · rintro ⟨metrics, formulas⟩
    exact ⟨fun m listed => (metrics m listed).1, fun m listed => (metrics m listed).2, formulas⟩
  · rintro ⟨categories, entries, formulas⟩
    exact ⟨fun m listed => ⟨categories m listed, entries m listed⟩, formulas⟩

/-- Nothing stops a validation under safe limits, if category ids can be looked up and shown. -/
theorem faults_eq_nil_of_keys (safe : limits.inner.inner.Safe)
    (named : ∀ m ∈ w.metrics, m.categoryId.isKey ∧ m.categoryId.isShown) :
    w.faults limits = [] :=
  faults_eq_nil_iff.mpr ⟨fun m listed => categoryFault?_eq_none (named m listed),
    fun entry _ => fault?_eq_none safe entry⟩

/-- Nothing stops a validation under safe limits. -/
theorem faults_eq_nil (safe : limits.inner.inner.Safe) (named : ∀ m ∈ w.metrics, m.NamesByText) :
    w.faults limits = [] :=
  faults_eq_nil_of_keys safe fun m listed => (named m listed).isKey

theorem validate_eq_ok_iff {issues : List Issue} :
    w.validate limits = .ok issues ↔ w.faults limits = [] ∧ issues = w.issues limits := by
  rw [Workbook.validate]
  cases w.faults limits with
  | nil => simp [eq_comm]
  | cons fault rest => simp

/-! ## §2 Whole -/

/-- **What a validation decides, for all workbooks and limits.** When it comes to an end, the list
of problems that stop a simulation is empty if and only if the workbook is sound. It comes to an end
wherever metrics name their categories by texts, and a stack on which two places more are taken has
room for the fivefold of the nesting limit. -/
theorem validate_exact (limits : Limits) (w : Workbook) :
    (∀ issues, w.validate limits = .ok issues → (blocking issues = [] ↔ w.Sound limits)) ∧
    (limits.inner.inner.Safe → (∀ m ∈ w.metrics, m.NamesByText) →
      ∃ issues, w.validate limits = .ok issues) := by
  constructor
  · intro issues ended
    obtain ⟨-, rfl⟩ := validate_eq_ok_iff.mp ended
    exact blocking_issues_eq_nil_iff
  · intro safe named
    exact ⟨w.issues limits, validate_eq_ok_iff.mpr ⟨faults_eq_nil safe named, rfl⟩⟩

/-- A fixed value, and a formula that refers to it. -/
def smallWorkbook : Workbook :=
  { metrics := [⟨"x", "x", none, some 1, none, none, .null, .null⟩]
    formulas := [⟨"y", "y", "2*-x"⟩]
    categories := [⟨"c", "c", .benefit, ["x"], .null⟩] }

theorem spells_smallFormula :
    Spells {} "2*-x" (.binary .times (.number 2) (.unary .minus (.reference "x"))) := by
  have scanned : tokens "2*-x" = .ok [⟨.number, "2", 0⟩, ⟨.operator, "*", 1⟩,
      ⟨.operator, "-", 2⟩, ⟨.identifier, "x", 3⟩] := by
    have two : lexeme '2' ['*', '-', 'x'] = some ⟨.number, ['2'], ['*', '-', 'x']⟩ := rfl
    have star : lexeme '*' ['-', 'x'] = some ⟨.operator, ['*'], ['-', 'x']⟩ := rfl
    have minus : lexeme '-' ['x'] = some ⟨.operator, ['-'], ['x']⟩ := rfl
    have name : lexeme 'x' [] = some ⟨.identifier, ['x'], []⟩ := rfl
    have chars : "2*-x".toList = ['2', '*', '-', 'x'] := rfl
    rw [tokens, chars, tokensFrom_cons 0 (by decide) two, tokensFrom_cons _ (by decide) star,
      tokensFrom_cons _ (by decide) minus, tokensFrom_cons _ (by decide) name, tokensFrom]
    rfl
  have two : Derives .product [⟨.number, "2", 0⟩] (.number 2) 0 :=
    .signed (.primary (.number rfl rfl))
  have negated : Derives .signed [⟨.operator, "-", 2⟩, ⟨.identifier, "x", 3⟩]
      (.unary .minus (.reference "x")) 1 :=
    .sign ⟨rfl, .inr rfl⟩ (.primary (.reference rfl))
  exact ⟨by decide +kernel, by decide +kernel, _, 1, scanned,
    .product (.times two ⟨rfl, .inl rfl⟩ negated), .inr rfl, rfl⟩

/-- The only reference is that of the formula. -/
theorem refers_smallWorkbook {a b : String} (h : smallWorkbook.Refers {} a b) :
    a = "y" ∧ b = "x" := by
  obtain ⟨entry, member, rfl, e, spells, refers⟩ := h
  have entries : smallWorkbook.formulaEntries = [⟨"y", "expression", "2*-x"⟩] := rfl
  rw [entries, List.mem_singleton] at member
  subst member
  rw [spells.unique spells_smallFormula] at refers
  exact ⟨rfl, List.mem_singleton.mp refers⟩

theorem smallWorkbook_sound : smallWorkbook.Sound {} where
  distinct := by decide
  members := by decide
  values := by
    intro m listed x value
    cases List.mem_singleton.mp listed
    cases value
    rfl
  estimates := by
    intro m listed d estimate
    cases List.mem_singleton.mp listed
    cases estimate
  formulas := by
    intro entry member
    cases List.mem_singleton.mp member
    refine ⟨_, spells_smallFormula, fun callee arguments called => ?_, fun name refers => ?_⟩
    · simp [Expr.preorder] at called
    · rw [List.mem_singleton.mp refers]
      exact .inl (by decide)
  acyclic := by
    intro id cycle
    obtain ⟨_, first, -⟩ := Relation.TransGen.head'_iff.mp cycle
    obtain ⟨_, -, last⟩ := Relation.TransGen.tail'_iff.mp cycle
    have isFormula := (refers_smallWorkbook first).1
    have isMetric := (refers_smallWorkbook last).2
    rw [isFormula] at isMetric
    exact absurd isMetric (by decide)

theorem smallWorkbook_named : ∀ m ∈ smallWorkbook.metrics, m.NamesByText := by
  intro m listed
  cases List.mem_singleton.mp listed
  exact .inl rfl

/-- Default limits are safe as long as the callers take few places. -/
theorem safe_inside {places : Nat} (low : places + 5 * 64 ≤ readingPlaces) :
    (Limits.inside places {}).Safe :=
  ⟨⟨64, rfl, by simpa [Limits.inside] using low⟩, rfl, rfl⟩

/-- The theorem at the small workbook, which has no problem that stops a simulation. -/
theorem validate_exact_small :
    ∃ issues, smallWorkbook.validate {} = .ok issues ∧ blocking issues = [] := by
  have safe : (Limits.inside 2 {}).Safe := safe_inside (by decide)
  obtain ⟨decides, ends⟩ := validate_exact {} smallWorkbook
  obtain ⟨issues, ended⟩ := ends safe smallWorkbook_named
  exact ⟨issues, ended, (decides issues ended).mpr smallWorkbook_sound⟩

/-! ## §3 Limits -/

/-- A formula that a limit of a thousand admits and the stack does not. -/
def nestedWorkbook : Workbook :=
  { metrics := [], formulas := [⟨"f", "f", String.ofList (nestedOne 300)⟩], categories := [] }

/-- The limits that admit it. -/
def wideLimits : Limits := { nesting := .int 1000 }

theorem spells_nestedFormula :
    Spells wideLimits (String.ofList (nestedOne 300)) (.number 1) :=
  ⟨isAllBlank_nestedOne 300, by rw [size_nestedOne]; rfl, _, 300, tokens_nestedOne 300,
    derives_nestedTokens rfl 0 300, .inr rfl, rfl⟩

theorem mem_nestedEntries {entry : Entry} (h : entry ∈ nestedWorkbook.formulaEntries) :
    entry = ⟨"f", "expression", String.ofList (nestedOne 300)⟩ :=
  List.mem_singleton.mp h

/-- A workbook of one formula is stopped where the reading of the formula is. -/
theorem faults_of_readStop {id name text : String} {stop : ReadStop}
    (notBlank : Text.isAllBlank text = false)
    (stopped : readStop? limits.inner.inner text = some stop) :
    Workbook.faults limits ⟨[], [⟨id, name, text⟩], []⟩ = [.reading id stop] := by
  have fault : Entry.fault? limits ⟨id, "expression", text⟩ = some (.reading id stop) := by
    simp [Entry.fault?, checkStop?, Option.filter, notBlank, stopped]
  simp [Workbook.faults, NamedFormula.entry, fault]

theorem nestedWorkbook_faults :
    nestedWorkbook.faults wideLimits = [.reading "f" .stackExhausted] :=
  faults_of_readStop (isAllBlank_nestedOne 300)
    (readStop?_nestedOne rfl rfl rfl (Limits.allows_whole.mpr (.inr rfl)) (by decide))

theorem nestedWorkbook_sound : nestedWorkbook.Sound wideLimits := by
  refine ⟨by decide, by decide, by simp [nestedWorkbook], by simp [nestedWorkbook], ?_, ?_⟩
  · intro entry member
    rw [mem_nestedEntries member]
    refine ⟨_, spells_nestedFormula, fun callee arguments called => ?_, fun name refers => ?_⟩
    · simp [Expr.preorder] at called
    · cases refers
  · intro id cycle
    obtain ⟨_, first, -⟩ := Relation.TransGen.head'_iff.mp cycle
    obtain ⟨entry, member, -, e, spells, refers⟩ := first
    rw [mem_nestedEntries member] at spells
    rw [spells.unique spells_nestedFormula] at refers
    cases refers

/-- **High limits leave a sound workbook undecided.** -/
theorem validate_beyond_stack :
    nestedWorkbook.Sound wideLimits ∧
      nestedWorkbook.validate wideLimits = .error (.reading "f" .stackExhausted) := by
  refine ⟨nestedWorkbook_sound, ?_⟩
  rw [Workbook.validate, nestedWorkbook_faults]
  rfl

end BusinessCase
