/-
BusinessCase.Proofs.Simulation.RollUp — whose money a trial counts.

The money of a category is added up from the final values of its members. It
goes into the totals category by category, but is recorded under the id of the
category, where a later category of that id takes its place. Totals and records
therefore agree where no id of a category is used twice, which no check of a
workbook asks for.

  §1 Money    — `Workbook.payers`, `Trial.moneyOf`.
  §2 Trials   — every metric has a value when the money is counted.
  §3 Records  — `Trial.RollsUp`, what a trial makes of the categories.
  §4 Whole    — `run_rollsUp`.
  §5 Twins    — two categories of one id.
-/
import BusinessCase.Proofs.Simulation.Columns
import BusinessCase.Proofs.Simulation.Verdict

namespace BusinessCase

open Formula Scalar

variable {σ : Type} [UniformSource σ Float] {limits : Limits} {horizon : Horizon Float}
  {w : Workbook}

/-! ## §1 Money -/

/-- The members of a category that are money, in workbook order. -/
def Workbook.payers (w : Workbook) (c : Category) : List Metric :=
  (w.members c).filter Metric.isMonetary

/-- The money of a category in a trial: the final values of its members, added up in order. -/
def Trial.moneyOf (t : Trial Float) (w : Workbook) (c : Category) : Float :=
  (w.planCategory c).contribution t.values

/-- A metric pays into a category if it is money, and the category lists it or it names the
category. -/
theorem mem_payers_iff {c : Category} {m : Metric} :
    m ∈ w.payers c ↔
      m ∈ w.metrics ∧ m.isMonetary ∧ (m.id ∈ c.metricIds ∨ m.categoryId = .text c.id) := by
  have names : m.names c = true ↔ m.categoryId = .text c.id := by
    unfold Metric.names
    split <;> simp_all
  rw [Workbook.payers, Workbook.members, List.mem_filter, List.mem_filter, Bool.or_eq_true,
    List.contains_iff_mem, names, and_assoc, and_comm (a := m.isMonetary = true)]

/-- No metric pays into a category twice. -/
theorem payers_nodup (distinct : w.ids.Nodup) (c : Category) :
    ((w.payers c).map Metric.id).Nodup := by
  have metrics : (w.metrics.map Metric.id).Nodup := (List.nodup_append'.mp distinct).1
  exact metrics.sublist ((List.filter_sublist.trans List.filter_sublist).map Metric.id)

/-! ## §2 Trials -/

section Trials

variable {σ α : Type} [UniformSource σ α] [Scalar α]

/-- Every input is sampled, in order. -/
theorem sampleInputs_names {inputs : List (Input α)} {s : σ} {sampled : Table α}
    (done : (sampleInputs inputs s).1 = .ok sampled) : sampled.names = inputs.map Input.id := by
  induction inputs generalizing s sampled with
  | nil =>
    cases done
    rfl
  | cons input rest ih =>
    rw [sampleInputs, Sampler.andThen] at done
    split at done
    · next x s' _ =>
      rw [Sampler.andThen] at done
      split at done
      · next table s'' others =>
        cases done
        rw [Table.names, List.map_cons, List.map_cons, ← ih (congrArg Prod.fst others)]
        rfl
      · cases done
    · cases done

/-- A trial that ends has sampled its inputs, evaluated its formulas and rolled up the results. -/
theorem trial_eq_ok {plan : Plan α} {s : σ} {t : Trial α}
    (ended : (plan.trial s).1 = .ok t) :
    ∃ sampled : Table α, sampled.names = plan.inputs.map Input.id ∧
      ∃ values, plan.complete (Table.ofEntries sampled) = .ok values ∧
        plan.rollUp (Table.ofEntries sampled) values = .ok t := by
  rw [Plan.trial] at ended
  split at ended
  · cases ended
  · next sampled s' drawn =>
    rw [Plan.settle] at ended
    dsimp only at ended
    split at ended
    · cases ended
    · next values computed =>
      exact ⟨sampled, sampleInputs_names (congrArg Prod.fst drawn), values, computed, ended⟩

omit [UniformSource σ α] in
/-- A roll-up that ends spreads the totals of benefits and costs over the years, discounts what is
left of them and finds out when they pay back. -/
theorem rollUp_eq_ok {plan : Plan α} {sampled values : Table α} {t : Trial α}
    (done : plan.rollUp sampled values = .ok t) :
    t.values = values ∧
      t.contributions =
        Table.ofEntries (plan.categories.map fun c => (c.id, c.contribution values)) ∧
      t.benefits = plan.horizon.growth.map (totalOf .benefit values plan.categories * ·) ∧
      t.costs = plan.horizon.efficiency.map (totalOf .cost values plan.categories * ·) ∧
      t.net = List.zipWith (· - ·) t.benefits t.costs ∧
      (∃ rate, plan.horizon.usableRate values = .ok rate ∧ discount t.net rate = .ok t.npv) ∧
      paybackMonths? t.benefits t.costs = some t.payback := by
  unfold Plan.rollUp at done
  dsimp only at done
  split at done
  · cases done
  · next rate usable =>
    split at done
    · cases done
    · next npv discounted =>
      split at done
      · cases done
      · next payback recovered =>
        cases done
        exact ⟨rfl, rfl, rfl, rfl, rfl, ⟨rate, usable, discounted⟩, recovered⟩

end Trials

/-- What was sampled keeps a value when formulas are evaluated on top of it. -/
theorem complete_isSome {plan : Plan Float} {leaves : List String} (orderly : plan.Orderly leaves)
    {sampled values : Table Float} (computed : plan.complete sampled = .ok values) {id : String}
    (given : id ∈ sampled.names) : ∃ x, values.find? id = some x := by
  obtain ⟨results, -⟩ := orderly.evaluateFrom_values 2 Cell.number (fun x => x)
    (fun _ => rfl) sampled
  obtain ⟨isFormula, isInput⟩ := results values computed id
  cases own : plan.formulas.find? id with
  | none =>
    rw [isInput own]
    exact Option.ne_none_iff_exists'.mp fun none => Table.find?_eq_none_iff.mp none given
  | some e =>
    obtain ⟨x, -, found⟩ := isFormula e own
    exact ⟨x, found⟩

/-! ## §3 Records -/

/-- What a trial makes of the categories of a workbook. -/
structure Trial.RollsUp (w : Workbook) (horizon : Horizon Float) (t : Trial Float) : Prop where
  /-- The money of a category is the sum of the final values of its payers. -/
  money : ∀ c ∈ w.categories, ∃ xs,
    List.Forall₂ (fun m x => t.values.find? m.id = some x) (w.payers c) xs ∧
      t.moneyOf w c = sumLeft xs
  /-- Under an id the money of the last category with that id is recorded. -/
  recorded : ∀ id x, t.contributions.find? id = some x ↔
    ∃ before c after, w.categories = before ++ c :: after ∧ c.id = id ∧
      (∀ later ∈ after, later.id ≠ id) ∧ x = t.moneyOf w c
  /-- The money of all benefit categories grows over the years. -/
  benefits : t.benefits = horizon.growth.map
    (sumLeft ((w.categories.filter (·.type = .benefit)).map (t.moneyOf w)) * ·)
  /-- The money of all cost categories shrinks over the years. -/
  costs : t.costs = horizon.efficiency.map
    (sumLeft ((w.categories.filter (·.type = .cost)).map (t.moneyOf w)) * ·)
  /-- The worth is that of the differences, and of nothing else. -/
  worth : t.net = List.zipWith (· - ·) t.benefits t.costs ∧
    ∃ rate, discount t.net rate = .ok t.npv

/-- Where no id of a category is used twice, every category finds its own money recorded. -/
theorem Trial.RollsUp.find? {t : Trial Float} (h : t.RollsUp w horizon)
    (distinct : (w.categories.map Category.id).Nodup) {c : Category} (listed : c ∈ w.categories) :
    t.contributions.find? c.id = some (t.moneyOf w c) := by
  obtain ⟨before, after, split⟩ := List.append_of_mem listed
  refine (h.recorded c.id _).mpr ⟨before, c, after, split, rfl, fun later member same => ?_, rfl⟩
  rw [split, List.map_append, List.map_cons] at distinct
  have fresh := (List.nodup_cons.mp (List.nodup_append'.mp distinct).2.1).1
  exact fresh (List.mem_map.mpr ⟨later, member, same⟩)

/-- The money that counts as benefit or as cost is then the sum of what is recorded. -/
theorem Trial.RollsUp.map_find? {t : Trial Float} (h : t.RollsUp w horizon)
    (distinct : (w.categories.map Category.id).Nodup) (type : CategoryType) :
    (w.categories.filter (·.type = type)).map (t.moneyOf w) =
      (w.categories.filter (·.type = type)).map fun c => (t.contributions.find? c.id).getD nan := by
  refine List.map_congr_left fun c member => ?_
  rw [h.find? distinct (List.mem_of_mem_filter member), Option.getD_some]

/-- The total of a type is that of the categories of the workbook. -/
theorem totalOf_plan (type : CategoryType) (values : Table Float) :
    totalOf type values (w.categories.map w.planCategory) =
      sumLeft ((w.categories.filter (·.type = type)).map fun c =>
        (w.planCategory c).contribution values) := by
  rw [totalOf, List.filter_map, List.map_map]
  rfl

/-- The last entry under an id is that of the last item with the id. -/
theorem last_entry_iff {items : List Category} {id : String} (f : Category → Float) {x : Float} :
    (∃ before after, items.map (fun c => (c.id, f c)) = before ++ (id, x) :: after ∧
        id ∉ Table.names after) ↔
      ∃ before c after, items = before ++ c :: after ∧ c.id = id ∧
        (∀ later ∈ after, later.id ≠ id) ∧ x = f c := by
  constructor
  · rintro ⟨before, after, split, unnamed⟩
    obtain ⟨front, back, rfl, -, entries⟩ := List.map_eq_append_iff.mp split
    obtain ⟨c, later, rfl, entry, rfl⟩ := List.map_eq_cons_iff.mp entries
    cases entry
    refine ⟨front, c, later, rfl, rfl, fun other member same => unnamed ?_, rfl⟩
    exact List.mem_map.mpr ⟨_, List.mem_map_of_mem member, same⟩
  · rintro ⟨before, c, after, rfl, rfl, last, rfl⟩
    refine ⟨_, _, by rw [List.map_append, List.map_cons], fun named => ?_⟩
    obtain ⟨_, entry, same⟩ := List.mem_map.mp named
    obtain ⟨later, member, rfl⟩ := List.mem_map.mp entry
    exact last later member same

/-- **What a trial makes of the categories.** -/
theorem rollsUp_of_trial (sound : w.Sound limits) {s : σ} {t : Trial Float}
    (ended : ((w.plan limits horizon).trial s).1 = .ok t) : t.RollsUp w horizon := by
  obtain ⟨sampled, names, values, computed, rolled⟩ := trial_eq_ok ended
  obtain ⟨rfl, recorded, benefits, costs, net, ⟨rate, -, worth⟩, -⟩ := rollUp_eq_ok rolled
  refine ⟨fun c listed => ?_, fun id x => ?_, ?_, ?_, net, rate, worth⟩
  · have found (m : Metric) (member : m ∈ w.payers c) : ∃ x, t.values.find? m.id = some x := by
      refine complete_isSome (orderly_plan horizon sound) computed ?_
      rw [Table.mem_names_ofEntries, names]
      have isMetric := (mem_payers_iff.mp member).1
      exact List.mem_map.mpr ⟨m.input, List.mem_map_of_mem isMetric, rfl⟩
    refine ⟨(w.payers c).map fun m => (t.values.find? m.id).getD nan, ?_, ?_⟩
    · rw [List.forall₂_map_right_iff, List.forall₂_same]
      intro m member
      obtain ⟨x, value⟩ := found m member
      rw [value, Option.getD_some]
    · rw [Trial.moneyOf, PlanCategory.contribution, Workbook.planCategory, List.map_map]
      rfl
  · have entries :
        (w.plan limits horizon).categories.map (fun c => (c.id, c.contribution t.values)) =
          w.categories.map fun c => (c.id, t.moneyOf w c) := List.map_map
    rw [recorded, entries, Table.find?_ofEntries_eq_some_iff]
    exact last_entry_iff (t.moneyOf w)
  · rw [benefits]
    exact congrArg (fun total => horizon.growth.map (total * ·)) (totalOf_plan .benefit t.values)
  · rw [costs]
    exact congrArg (fun total => horizon.efficiency.map (total * ·)) (totalOf_plan .cost t.values)

/-! ## §4 Whole -/

/-- **Whose money a run counts.** In every trial of a workbook that compiles, the money of a category
is the sum of the final values of its payers, each of which counts once; the yearly benefits, costs
and the worth come from the money of all benefit and cost categories; and under an id the money of
the last category with that id is recorded. Where no id of a category is used twice, the records are
therefore the money of each category, they add up to all that is spread over the years, and a report
of the run gives the mean of every category's money. -/
theorem run_rollsUp {plan : Plan Float} (compiled : w.compile limits horizon = .ok plan)
    {trials : List (Trial Float)} (ended : ∀ t ∈ trials, ∃ s : σ, (plan.trial s).1 = .ok t) :
    (∀ c, ((w.payers c).map Metric.id).Nodup ∧ ∀ m, m ∈ w.payers c ↔
      m ∈ w.metrics ∧ m.isMonetary ∧ (m.id ∈ c.metricIds ∨ m.categoryId = .text c.id)) ∧
    (∀ t ∈ trials, t.RollsUp w horizon) ∧
    ((w.categories.map Category.id).Nodup →
      (∀ t ∈ trials,
        (∀ c ∈ w.categories, t.contributions.find? c.id = some (t.moneyOf w c)) ∧
        t.benefits = horizon.growth.map (sumLeft ((w.categories.filter (·.type = .benefit)).map
          fun c => (t.contributions.find? c.id).getD nan) * ·) ∧
        t.costs = horizon.efficiency.map (sumLeft ((w.categories.filter (·.type = .cost)).map
          fun c => (t.contributions.find? c.id).getD nan) * ·)) ∧
      ∀ npvMean, contributions (TrialTables.ofTrials plan trials).categories npvMean
          (w.categories.map fun c => ⟨c.id, c.name⟩) =
        .ok (w.categories.map fun c => ⟨c.id, c.name, mean (trials.map (·.moneyOf w c)),
          percentageOf npvMean (mean (trials.map (·.moneyOf w c)))⟩)) := by
  obtain ⟨-, sound, rfl⟩ := compile_eq_ok_iff.mp compiled
  have rollsUp (t : Trial Float) (member : t ∈ trials) : t.RollsUp w horizon := by
    obtain ⟨s, done⟩ := ended t member
    exact rollsUp_of_trial sound done
  refine ⟨fun c => ⟨payers_nodup sound.distinct c, fun m => mem_payers_iff⟩, rollsUp,
    fun distinct => ⟨fun t member => ⟨fun c => (rollsUp t member).find? distinct, ?_, ?_⟩,
      fun npvMean => ?_⟩⟩
  · rw [← (rollsUp t member).map_find? distinct]
    exact (rollsUp t member).benefits
  · rw [← (rollsUp t member).map_find? distinct]
    exact (rollsUp t member).costs
  · refine contributions_eq_ok npvMean fun c listed => ?_
    have named : c.id ∈ ((w.plan limits horizon).categories).map PlanCategory.id :=
      List.mem_map.mpr ⟨w.planCategory c, List.mem_map_of_mem listed, rfl⟩
    rw [TrialTables.ofTrials, idColumns_find? trials _ named]
    refine congrArg some (List.map_congr_left fun t member => ?_)
    rw [(rollsUp t member).find? distinct listed, Option.getD_some]

/-! ## §5 Twins -/

/-- A fee that counts as income, and a category of costs without members. -/
def feeWorkbook (costId : String) : Workbook :=
  { metrics := [⟨"fee", "fee", some "$", some 100, none, none, .null, .null⟩], formulas := []
    categories := [⟨"income", "income", .benefit, ["fee"], .null⟩,
      ⟨costId, "spending", .cost, [], .null⟩] }

/-- One year, without discount. -/
def oneYear : Horizon Float := ⟨[1], [1], .ok 0, none, none, []⟩

theorem feeWorkbook_entries (costId : String) : (feeWorkbook costId).formulaEntries = [] := rfl

theorem feeWorkbook_sound (costId : String) : (feeWorkbook costId).Sound {} where
  distinct := by simp [feeWorkbook, Workbook.ids]
  members := by simp [feeWorkbook]
  values := by
    intro m listed x value
    cases List.mem_singleton.mp listed
    cases value
    rfl
  estimates := by
    intro m listed d estimate
    cases List.mem_singleton.mp listed
    cases estimate
  formulas := by simp [feeWorkbook_entries]
  acyclic := by
    intro id cycle
    obtain ⟨_, ⟨entry, member, -⟩, -⟩ := Relation.TransGen.head'_iff.mp cycle
    rw [feeWorkbook_entries] at member
    cases member

theorem feeWorkbook_compiles (costId : String) :
    (feeWorkbook costId).compile {} oneYear = .ok ((feeWorkbook costId).plan {} oneYear) := by
  have safe : (Limits.inside 3 {}).Safe := safe_inside (by decide)
  have named : ∀ m ∈ (feeWorkbook costId).metrics, m.NamesByText := by
    intro m listed
    cases List.mem_singleton.mp listed
    exact .inl rfl
  exact compile_eq_ok_iff.mpr ⟨faults_eq_nil safe named, feeWorkbook_sound costId, rfl⟩

/-- What every trial of the workbook comes to. -/
def feeTrial (costId : String) : Trial Float :=
  { sampled := [("fee", 100)], values := [("fee", 100)]
    contributions := Table.ofEntries [("income", 100), (costId, 0)]
    benefits := [100], costs := [0], net := [100], npv := 100, payback := .months 1 }

/-- There is nothing to evaluate. -/
theorem feeWorkbook_order (costId : String) :
    ((feeWorkbook costId).plan {} oneYear).order = [] := by
  refine List.eq_nil_iff_forall_not_mem.mpr fun id member => ?_
  obtain ⟨entry, listed, -⟩ :=
    ((plan_schedules oneYear (feeWorkbook_sound costId)).all id).mp member
  rw [feeWorkbook_entries] at listed
  cases listed

theorem feeWorkbook_rollUp (costId : String) :
    ((feeWorkbook costId).plan {} oneYear).rollUp [("fee", 100)] [("fee", 100)] =
      .ok (feeTrial costId) := by
  have growth : ((feeWorkbook costId).plan {} oneYear).horizon.growth = [1] := rfl
  have efficiency : ((feeWorkbook costId).plan {} oneYear).horizon.efficiency = [1] := rfl
  have rate : ((feeWorkbook costId).plan {} oneYear).horizon.usableRate [("fee", 100)] = .ok 0 :=
    rfl
  -- The totals first, so that only numerals are left to be worked out.
  have benefit : totalOf .benefit [("fee", 100)] ((feeWorkbook costId).plan {} oneYear).categories =
      sumLeft [sumLeft [(100 : Float)]] := rfl
  have cost : totalOf .cost [("fee", 100)] ((feeWorkbook costId).plan {} oneYear).categories =
      sumLeft [sumLeft ([] : List Float)] := rfl
  have benefits : [1].map (sumLeft [sumLeft [(100 : Float)]] * ·) = [100] := rfl
  have costs : [1].map (sumLeft [sumLeft ([] : List Float)] * ·) = [0] := rfl
  have net : List.zipWith (· - ·) [(100 : Float)] [0] = [100] := rfl
  have worth : discount [(100 : Float)] 0 = .ok 100 := rfl
  have payback : paybackMonths? [(100 : Float)] [0] = some (.months 1) := rfl
  simp only [Plan.rollUp, growth, efficiency, rate, benefit, cost, benefits, costs, net, worth,
    payback]
  rfl

theorem feeWorkbook_trial (costId : String) (s : Listed Float) :
    (((feeWorkbook costId).plan {} oneYear).trial s).1 = .ok (feeTrial costId) := by
  have sampled : sampleInputs ((feeWorkbook costId).plan {} oneYear).inputs s =
      (.ok [("fee", 100)], s) := rfl
  have table : Table.ofEntries [("fee", (100 : Float))] = [("fee", 100)] := rfl
  have computed : ((feeWorkbook costId).plan {} oneYear).complete [("fee", 100)] =
      .ok [("fee", 100)] := by
    rw [Plan.complete, feeWorkbook_order]
    rfl
  rw [Plan.trial, sampled]
  dsimp only
  rw [table, Plan.settle, computed]
  dsimp only
  rw [feeWorkbook_rollUp]

/-- The theorem at the workbook whose categories have two ids: 100 is recorded as income, and is all
that is spread. -/
theorem run_rollsUp_fee :
    (feeTrial "spending").contributions.find? "income" = some 100 ∧
      contributions (TrialTables.ofTrials ((feeWorkbook "spending").plan {} oneYear)
        [feeTrial "spending"]).categories 100 [⟨"income", "income"⟩, ⟨"spending", "spending"⟩] =
        .ok [⟨"income", "income", mean [100], percentageOf 100 (mean [100])⟩,
          ⟨"spending", "spending", mean [0], percentageOf 100 (mean [0])⟩] := by
  have ended : ∀ t ∈ [feeTrial "spending"], ∃ s : Listed Float,
      (((feeWorkbook "spending").plan {} oneYear).trial s).1 = .ok t := by
    intro t member
    rw [List.mem_singleton.mp member]
    exact ⟨⟨[], 0⟩, feeWorkbook_trial "spending" _⟩
  obtain ⟨-, -, accounts⟩ := run_rollsUp (feeWorkbook_compiles "spending") ended
  obtain ⟨trials, report⟩ := accounts (by decide)
  obtain ⟨recorded, -⟩ := trials _ (List.mem_singleton_self _)
  exact ⟨recorded ⟨"income", "income", .benefit, ["fee"], .null⟩ List.mem_cons_self, report 100⟩

/-- **Where two categories share an id, the money of the first is recorded nowhere.** It counts all
the same. -/
theorem recorded_twins :
    (feeWorkbook "income").compile {} oneYear = .ok ((feeWorkbook "income").plan {} oneYear) ∧
      (((feeWorkbook "income").plan {} oneYear).trial (⟨[], 0⟩ : Listed Float)).1 =
        .ok (feeTrial "income") ∧
      (feeTrial "income").moneyOf (feeWorkbook "income")
        ⟨"income", "income", .benefit, ["fee"], .null⟩ = 100 ∧
      (feeTrial "income").benefits = [100] ∧
      (feeTrial "income").contributions.find? "income" = some 0 ∧ ((0 : Float) == 100) = false :=
  ⟨feeWorkbook_compiles "income", feeWorkbook_trial "income" _, rfl, rfl, rfl, rfl⟩

end BusinessCase
