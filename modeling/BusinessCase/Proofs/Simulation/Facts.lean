/-
BusinessCase.Proofs.Simulation.Facts — categories that only group facts.

A category of facts adds up what is in it, and that is recorded under its id and
reported as its contribution. Nothing else depends on it: neither the metrics of
other categories, nor the totals that are spread over the years, nor what is
made of them. Two workbooks that differ in such categories alone therefore have
the same trials and the same report, contributions apart.

  §1 Workbooks — `Workbook.DiffersInFacts`, and the plans of such workbooks.
  §2 Trials    — what a trial makes of them, contributions apart.
  §3 Reports   — what a report makes of the trials.
  §4 Whole     — `simulate_facts`.
-/
import BusinessCase.Proofs.Settings
import BusinessCase.Proofs.Simulation.Alike
import BusinessCase.Proofs.Simulation.RollUp
import BusinessCase.Simulation.Engine

namespace BusinessCase

open Formula Scalar

variable {w w' : Workbook} {plan plan' : Plan Float}

/-! ## §1 Workbooks -/

/-- The workbooks have the same metrics, formulas and categories, but for categories of facts. -/
structure Workbook.DiffersInFacts (w w' : Workbook) : Prop where
  metrics : w.metrics = w'.metrics
  formulas : w.formulas = w'.formulas
  categories : w.categories.filter (·.type ≠ .facts) = w'.categories.filter (·.type ≠ .facts)

/-- The plans differ in categories of facts alone. -/
structure Plan.DiffersInFacts (plan plan' : Plan Float) : Prop where
  inputs : plan.inputs = plan'.inputs
  formulas : plan.formulas = plan'.formulas
  order : plan.order = plan'.order
  horizon : plan.horizon = plan'.horizon
  taken : plan.taken = plan'.taken
  categories : plan.categories.filter (·.type ≠ .facts) = plan'.categories.filter (·.type ≠ .facts)

/-- The formulas of a workbook are checked without its categories. -/
theorem Workbook.DiffersInFacts.trees (differs : w.DiffersInFacts w') (limits : Limits) :
    w.trees limits = w'.trees limits := by
  have ids : w.ids = w'.ids := by rw [Workbook.ids, differs.metrics, differs.formulas, Workbook.ids]
  have entries : w.formulaEntries = w'.formulaEntries := by
    rw [Workbook.formulaEntries, differs.metrics, differs.formulas, Workbook.formulaEntries]
  have checks (entry : Entry) : entry.check limits w = entry.check limits w' := by
    rw [Entry.check, ids, Entry.check]
  simp only [Workbook.trees, entries, checks]

theorem Workbook.DiffersInFacts.plans (differs : w.DiffersInFacts w') (limits : Limits)
    (horizon : Horizon Float) :
    (w.plan limits horizon).DiffersInFacts (w'.plan limits horizon) := by
  have trees := differs.trees limits
  -- Whose money a category counts is said by the metrics alone.
  have category : w.planCategory = w'.planCategory := by
    funext c
    simp only [Workbook.planCategory, Workbook.members, differs.metrics]
  have others (w : Workbook) : (w.categories.map w.planCategory).filter (·.type ≠ .facts) =
      (w.categories.filter (·.type ≠ .facts)).map w.planCategory := List.filter_map
  refine ⟨?_, trees, ?_, rfl, rfl, ?_⟩
  · simp only [Workbook.plan, Workbook.planWith, differs.metrics]
  · simp only [Workbook.plan, Workbook.planWith, differs.metrics, trees]
  · simp only [Workbook.plan, Workbook.planWith]
    rw [others w, others w', differs.categories, category]

/-! ## §2 Trials -/

/-- A trial without what is recorded of categories. -/
def Trial.besidesCategories (t : Trial Float) : Trial Float := { t with contributions := [] }

/-- Categories of facts count neither as benefit nor as cost. -/
theorem Plan.DiffersInFacts.total_eq (differs : plan.DiffersInFacts plan') {type : CategoryType}
    (counts : type ≠ .facts) (values : Table Float) :
    totalOf type values plan.categories =
      totalOf type values plan'.categories := by
  have counted (categories : List PlanCategory) : categories.filter (·.type = type) =
      (categories.filter (·.type ≠ .facts)).filter (·.type = type) := by
    rw [List.filter_filter]
    refine List.filter_congr fun c _ => ?_
    by_cases same : c.type = type
    · simp [same, counts]
    · simp [same]
  rw [totalOf, totalOf, counted, differs.categories, ← counted]

theorem Plan.DiffersInFacts.rollUp_eq (differs : plan.DiffersInFacts plan')
    (sampled values : Table Float) :
    (plan.rollUp sampled values).map Trial.besidesCategories =
      (plan'.rollUp sampled values).map Trial.besidesCategories := by
  have benefit := differs.total_eq (by decide : CategoryType.benefit ≠ .facts) values
  have cost := differs.total_eq (by decide : CategoryType.cost ≠ .facts) values
  simp only [Plan.rollUp, benefit, cost, differs.horizon]
  split
  · rfl
  · split
    · rfl
    · split <;> rfl

/-- **Trials of plans that differ in facts are alike, whatever they are drawn from.** -/
theorem Plan.DiffersInFacts.trial_alike {σ : Type} [UniformSource σ Float]
    (differs : plan.DiffersInFacts plan') (s : σ) :
    Alike Trial.besidesCategories (plan.trial s) (plan'.trial s) := by
  have completed (sampled : Table Float) : plan.complete sampled = plan'.complete sampled := by
    have evaluated (callers : Nat) (values : Table Float) (ids : List String) :
        plan.evaluateFrom callers Cell.number (fun x => x) values ids =
          plan'.evaluateFrom callers Cell.number (fun x => x) values ids := by
      induction ids generalizing values with
      | nil => rfl
      | cons id rest ih => simp only [Plan.evaluateFrom, differs.formulas, differs.taken, ih]
    rw [Plan.complete, evaluated, differs.order, Plan.complete]
  have settled (sampled : Table Float) :
      (plan.settle sampled).map Trial.besidesCategories =
        (plan'.settle sampled).map Trial.besidesCategories := by
    rw [Plan.settle, Plan.settle, completed]
    split
    · rfl
    · exact differs.rollUp_eq sampled _
  rw [Plan.trial, Plan.trial, differs.inputs]
  split
  · exact .refl _
  · exact congrArg (·, _) (settled _)

theorem Plan.DiffersInFacts.isSendable_eq (differs : plan.DiffersInFacts plan') (room : Nat) :
    plan.isSendable room = plan'.isSendable room := by
  rw [Plan.isSendable, differs.formulas, differs.inputs, differs.horizon, Plan.isSendable]

/-- How much of the stack is taken makes no difference. -/
theorem Plan.DiffersInFacts.above (differs : plan.DiffersInFacts plan') (t : Nat) :
    (plan.above t).DiffersInFacts (plan'.above t) := { differs with taken := rfl }

theorem truthBatch_alike {σ : Type} [UniformSource σ Float] {γ : Type} {f : Trial Float → γ}
    (alike : ∀ s : σ, Alike f (plan.trial s) (plan'.trial s)) (start : Nat → σ)
    (signal : Option Signal) (interval : Interval) (looks : Nat) :
    Alike (List.map f) (truthBatch plan start signal interval looks)
      (truthBatch plan' start signal interval looks) := by
  simp only [truthBatch]
  rcases (look signal looks : Except (RunError Float) Unit × Nat) with ⟨_ | _, looks⟩
  · exact .refl _
  · rcases (inlineFrom_alike alike start signal interval 0 [1] looks).cases with
      ⟨e, left, batch, batch'⟩ | ⟨ts, ts', left, batch, batch', -⟩
    · simp only [batch, batch']
      exact .refl _
    · simp only [batch, batch']
      exact .refl _

/-- So are the trials of whole runs. -/
theorem Plan.DiffersInFacts.seededTrials_alike (differs : plan.DiffersInFacts plan')
    (settings : Settings) (seed : List UInt32) (signal : Option Signal)
    (iterations : BusinessCase.Value) :
    Alike (List.map Trial.besidesCategories)
      (seededTrials plan settings seed signal iterations)
      (seededTrials plan' settings seed signal iterations) := by
  -- A run uses its plan two calls further in.
  have inner : Plan.DiffersInFacts { plan with taken := plan.taken + 2 }
      { plan' with taken := plan'.taken + 2 } :=
    { differs with taken := congrArg (· + 2) differs.taken }
  have failures {x y : Except (RunError Float) (List (Trial Float)) × Nat}
      (alike : Alike (List.map Trial.besidesCategories) x y) :
      Alike (List.map Trial.besidesCategories) (x.1.mapError Failure.ofRun, x.2)
        (y.1.mapError Failure.ofRun, y.2) := by
    rcases alike.cases with ⟨e, left, rfl, rfl⟩ | ⟨ts, ts', left, rfl, rfl, same⟩
    · exact .refl _
    · exact alike_ok same left
  unfold seededTrials
  refine failures ?_
  split
  · split
    · exact .refl _
    · split
      · exact truthBatch_alike (fun s => inner.trial_alike s) _ _ _ _
      · exact spreadTrials_alike (fun t s => (inner.above t).trial_alike s) inner.taken
          inner.isSendable_eq _ _ _ _ _
  · exact .refl _

/-! ## §3 Reports -/

/-- A report without what it says of categories. -/
def Report.besidesCategories (r : Report Float) : Report Float := { r with contributions := [] }

/-- The tables of trials that are alike differ in the columns of categories alone. -/
theorem Plan.DiffersInFacts.tables_eq (differs : plan.DiffersInFacts plan')
    {trials trials' : List (Trial Float)}
    (same : trials.map Trial.besidesCategories = trials'.map Trial.besidesCategories) :
    (TrialTables.ofTrials plan trials).outcomes = (TrialTables.ofTrials plan' trials').outcomes ∧
      (TrialTables.ofTrials plan trials).metrics = (TrialTables.ofTrials plan' trials').metrics ∧
      (TrialTables.ofTrials plan trials).formulas =
        (TrialTables.ofTrials plan' trials').formulas := by
  have seen {β : Type} (f : Trial Float → β) (blind : ∀ t, f t = f t.besidesCategories) :
      trials.map f = trials'.map f := by
    have through (ts : List (Trial Float)) : ts.map f = (ts.map Trial.besidesCategories).map f := by
      rw [List.map_map]
      exact List.map_congr_left fun t _ => blind t
    rw [through, same, ← through]
  have column (name : String) (f : Trial Float → Float) (blind : ∀ t, f t = f t.besidesCategories) :
      outcomeColumn trials name f = outcomeColumn trials' name f := by
    rw [outcomeColumn, seen f blind, outcomeColumn]
  have year (i : Nat) : yearColumns trials i = yearColumns trials' i := by
    simp only [yearColumns]
    rw [column _ _ fun _ => rfl, column _ _ fun _ => rfl, column _ _ fun _ => rfl]
  have columns (ids : List String) (f : Trial Float → Table Float)
      (blind : ∀ t, f t = f t.besidesCategories) :
      idColumns trials ids f = idColumns trials' ids f := by
    rw [idColumns, idColumns]
    exact List.map_congr_left fun id _ => column id _ fun t => by rw [blind t]
  refine ⟨?_, ?_, ?_⟩
  · simp only [TrialTables.ofTrials, differs.horizon, year]
    rw [column _ _ fun _ => rfl, column _ _ fun _ => rfl]
  · simp only [TrialTables.ofTrials, differs.inputs]
    exact columns _ _ fun _ => rfl
  · simp only [TrialTables.ofTrials, differs.order]
    exact columns _ _ fun _ => rfl

/-- Contributions apart, a report is made of outcomes and inputs. -/
theorem summarize_alike {tables tables' : TrialTables Float}
    {categories categories' : List CategoryName}
    (outcomes : tables.outcomes = tables'.outcomes) (metrics : tables.metrics = tables'.metrics)
    (reported : ∀ npvMean, ∃ parts,
      contributions tables.categories npvMean categories = .ok parts)
    (reported' : ∀ npvMean, ∃ parts,
      contributions tables'.categories npvMean categories' = .ok parts)
    (names : Table String) (years : Nat) (topK : Option Int) :
    (summarize tables categories names years topK).map (fun r => (r.1.besidesCategories, r.2)) =
      (summarize tables' categories' names years topK).map
        fun r => (r.1.besidesCategories, r.2) := by
  simp only [summarize, outcomes, metrics]
  cases column tables'.outcomes "npv" with
  | error missing => rfl
  | ok npv =>
    obtain ⟨parts, own⟩ := reported (Stats.of npv).mean
    obtain ⟨parts', own'⟩ := reported' (Stats.of npv).mean
    cases summarizeYears tables'.outcomes years 1 with
    | error missing => rfl
    | ok yearly =>
      cases column tables'.outcomes "payback_months" with
      | error missing => rfl
      | ok payback =>
        dsimp only [bind, Except.bind]
        rw [own, own']
        rfl

theorem Plan.DiffersInFacts.reportOf_alike (differs : plan.DiffersInFacts plan')
    (settings : Settings) {trials trials' : List (Trial Float)}
    (same : trials.map Trial.besidesCategories = trials'.map Trial.besidesCategories) :
    Alike Report.besidesCategories (reportOf plan settings trials)
      (reportOf plan' settings trials') := by
  obtain ⟨outcomes, metrics, -⟩ := differs.tables_eq same
  have summaries := summarize_alike outcomes metrics (exists_contributions plan trials)
    (exists_contributions plan' trials')
    (Table.ofEntries (plan'.inputs.map fun i => (i.id, i.name))) plan'.horizon.years
    (settings.rankingSize?.getD none)
  unfold reportOf
  dsimp only
  rw [differs.inputs, differs.horizon]
  generalize summarize (TrialTables.ofTrials plan trials) _ _ _ _ = x at summaries ⊢
  generalize summarize (TrialTables.ofTrials plan' trials') _ _ _ _ = y at summaries ⊢
  rcases x with missing | ⟨r, warnings⟩ <;> rcases y with missing' | ⟨r', warnings'⟩
  · cases summaries
    exact .refl _
  · cases summaries
  · cases summaries
  · obtain ⟨reports, rfl⟩ := Prod.mk.inj (Except.ok.inj summaries)
    dsimp only
    split
    · exact alike_ok reports _
    · exact .refl _

/-! ## §4 Whole -/

/-- **Categories of facts change nothing but contributions.** Let two workbooks that compile under
some settings have the same metrics, formulas and other categories. Then each trial, from whatever
source, and all trials of every run are the same in both, contributions apart: what is sampled, the
values of formulas, the flows of every year, the worth and the payback, or what the trial fails of.
So is every simulation, contributions apart: its statistics, its ranking, or what it fails of, and
the looks at its token. -/
theorem simulate_facts {settings : Settings} (differs : w.DiffersInFacts w')
    (compiled : planOf (settings.inside 1) w = .ok plan)
    (compiled' : planOf (settings.inside 1) w' = .ok plan') :
    (∀ {σ : Type} [UniformSource σ Float] (s : σ),
      Alike Trial.besidesCategories (plan.trial s) (plan'.trial s)) ∧
    (∀ (seed : List UInt32) (signal : Option Signal) (iterations : Value),
      Alike (List.map Trial.besidesCategories)
        (seededTrials plan (settings.inside 1) seed signal iterations)
        (seededTrials plan' (settings.inside 1) seed signal iterations)) ∧
    ∀ (iterations seed : Value) (signal : Option Signal) (entropy : List UInt32),
      let outcome := simulate settings w iterations seed signal entropy
      let outcome' := simulate settings w' iterations seed signal entropy
      Alike (fun report => (report.1.besidesCategories, report.2))
        (outcome.result, outcome.looks) (outcome'.result, outcome'.looks) := by
  have plans : plan.DiffersInFacts plan' := by
    obtain ⟨-, -, rfl⟩ := compile_eq_ok_iff.mp (mapError_eq_ok compiled)
    obtain ⟨-, -, rfl⟩ := compile_eq_ok_iff.mp (mapError_eq_ok compiled')
    exact differs.plans _ _
  refine ⟨fun s => plans.trial_alike s,
    fun seed signal iterations => plans.seededTrials_alike _ seed signal iterations, ?_⟩
  intro iterations seed signal entropy
  simp only [simulate, compiled, compiled']
  cases checkedTrials (settings.inside 1) iterations with
  | error failure => exact .refl _
  | ok wanted =>
    cases Seed.wordsOf? (seedFor (settings.inside 1) seed) with
    | error fault => exact .refl _
    | ok words =>
      have runs := plans.seededTrials_alike (settings.inside 1) (words.getD entropy) signal wanted
      dsimp only [bind, Except.bind, Except.mapError]
      rcases runs.cases with ⟨e, looks, ran, ran'⟩ | ⟨ts, ts', looks, ran, ran', same⟩
      · rw [ran, ran']
        exact .refl _
      · rw [ran, ran']
        dsimp only
        rcases (plans.reportOf_alike (settings.inside 1) same).cases with
          ⟨e, records, report, report'⟩ | ⟨r, r', records, report, report', reports⟩
        · rw [report, report']
          exact .refl _
        · rw [report, report']
          exact alike_ok (by rw [reports]) looks

/-- A fee that is income, and further categories. -/
def feeWith (others : List Category) : Workbook :=
  { metrics := [⟨"fee", "fee", some "$", some 100, none, none, .null, .null⟩], formulas := []
    categories := ⟨"income", "income", .benefit, ["fee"], .null⟩ :: others }

/-- A category of facts that lists the fee too. -/
def prices : Category := ⟨"prices", "prices", .facts, ["fee"], .null⟩

theorem feeWith_compiles {settings : Settings} (read : Settings.read [] [] = .ok settings)
    (others : List Category) (members : ∀ c ∈ others, ∀ id ∈ c.metricIds, id = "fee") :
    ∃ plan, planOf (settings.inside 1) (feeWith others) = .ok plan := by
  have nesting : settings.limits.nesting = .int 64 := by
    cases read
    rfl
  have safe : ((settings.inside 1).limits.inner.inner.inner).Safe :=
    (Settings.drawn read).safe nesting (by decide : 4 + 5 * Int.toNat 64 ≤ readingPlaces)
  have named : ∀ m ∈ (feeWith others).metrics, m.NamesByText := by
    intro m listed
    cases List.mem_singleton.mp listed
    exact .inl rfl
  have entries : (feeWith others).formulaEntries = [] := rfl
  have sound : (feeWith others).Sound (settings.inside 1).limits :=
    { distinct := by simp [feeWith, Workbook.ids]
      members := by
        simpa [feeWith] using fun c listed id member => (members c listed id member).symm
      values := by
        intro m listed x value
        cases List.mem_singleton.mp listed
        cases value
        rfl
      estimates := by
        intro m listed d estimate
        cases List.mem_singleton.mp listed
        cases estimate
      formulas := by simp [entries]
      acyclic := by
        intro id cycle
        obtain ⟨_, ⟨entry, member, -⟩, -⟩ := Relation.TransGen.head'_iff.mp cycle
        rw [entries] at member
        cases member }
  have compiled : (feeWith others).compile (settings.inside 1).limits
      (settings.inside 1).horizon.horizon = .ok _ :=
    compile_eq_ok_iff.mpr ⟨faults_eq_nil safe named, sound, rfl⟩
  exact ⟨_, by rw [planOf, compiled]; rfl⟩

/-- The theorem at a fee whose price is put among the facts as well. -/
theorem simulate_facts_prices :
    ∃ settings, Settings.read [] [] = .ok settings ∧
      let outcome := simulate settings (feeWith []) (.int 3) (.int 1) none []
      let outcome' := simulate settings (feeWith [prices]) (.int 3) (.int 1) none []
      Alike (fun report => (report.1.besidesCategories, report.2))
        (outcome.result, outcome.looks) (outcome'.result, outcome'.looks) := by
  have read : ∃ settings, Settings.read [] [] = .ok settings := ⟨_, rfl⟩
  obtain ⟨settings, read⟩ := read
  obtain ⟨plan, compiled⟩ := feeWith_compiles read [] (by simp)
  obtain ⟨plan', compiled'⟩ := feeWith_compiles read [prices] (by simp [prices])
  have differs : (feeWith []).DiffersInFacts (feeWith [prices]) := ⟨rfl, rfl, rfl⟩
  exact ⟨settings, read,
    (simulate_facts differs compiled compiled').2.2 (.int 3) (.int 1) none []⟩

end BusinessCase
