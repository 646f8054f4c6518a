/-
BusinessCase.Proofs.Simulation.Balance — the figures of a report add up.

In exact arithmetic the means that a report gives stand to each other as the
figures of a single trial do: what is left of a year is its benefits without
its costs, both are the totals times the factors of the year, and the worth is
what is left of all years, each discounted for its own. That holds because each
of these figures depends on the totals of a trial in a linear way, and because
every column of the report holds what its name says.

  §1 Factors — `Horizon.Counts`: the factors of the years are numbers.
  §2 Trials  — `Trial.Balanced`: the figures of a trial, from its two totals.
  §3 Means   — the means of such figures.
  §4 Whole   — `report_balanced`.
-/
import BusinessCase.Proofs.Simulation.CashFlow
import BusinessCase.Proofs.Simulation.RollUp
import BusinessCase.Proofs.Simulation.SampleColumns
import BusinessCase.Proofs.Statistics.Moments

namespace BusinessCase

open Scalar

variable {σ K : Type} {h : Horizon (Exact K)} {g e : Nat → K}

/-! ## §1 Factors -/

/-- The factors of a horizon are these numbers. -/
structure Horizon.Counts (h : Horizon (Exact K)) (g e : Nat → K) : Prop where
  growth : h.growth = (List.range h.years).map fun i => .num (g i)
  efficiency : h.efficiency = (List.range h.years).map fun i => .num (e i)

theorem Horizon.Counts.sameYears (counts : h.Counts g e) :
    h.growth.length = h.efficiency.length := by
  rw [counts.growth, counts.efficiency, List.length_map, List.length_map]

theorem eq_map_range {α : Type} (xs : List α) (default : α) :
    xs = (List.range xs.length).map fun i => xs.getD i default := by
  refine List.ext_getElem (by simp) fun i inside _ => ?_
  simp [List.getD, inside]

variable [Field K]

/-- What is left of a year before it is known to be a number. -/
def Horizon.left (h : Horizon (Exact K)) (benefit cost : Exact K) (i : Nat) : Exact K :=
  benefit * h.growth.getD i .nan - cost * h.efficiency.getD i .nan

theorem Horizon.Counts.left_eq (counts : h.Counts g e)
    {i : Nat} (within : i < h.years) (benefit cost : K) :
    h.left (.num benefit) (.num cost) i = .num (g i * benefit - e i * cost) := by
  have growth : h.growth.getD i .nan = .num (g i) := by simp [counts.growth, within]
  have efficiency : h.efficiency.getD i .nan = .num (e i) := by simp [counts.efficiency, within]
  rw [Horizon.left, growth, efficiency, Exact.num_mul, Exact.num_mul, Exact.num_sub, mul_comm,
    mul_comm cost]

/-- One trial with a worth is enough to know that the factors are numbers. -/
theorem exists_counts (sameYears : h.growth.length = h.efficiency.length)
    {benefit cost : Exact K}
    (numbers : ∀ i < h.years, ∃ x g y e, benefit = .num x ∧ h.growth.getD i .nan = .num g ∧
      cost = .num y ∧ h.efficiency.getD i .nan = .num e) :
    ∃ g e, h.Counts g e := by
  choose! x g y e _ growth _ efficiency using numbers
  have years := eq_map_range h.growth .nan
  have years' := eq_map_range h.efficiency .nan
  rw [← sameYears] at years'
  refine ⟨g, e, years.trans (List.map_congr_left fun i inside => ?_),
    years'.trans (List.map_congr_left fun i inside => ?_)⟩
  · exact growth i (List.mem_range.mp inside)
  · exact efficiency i (List.mem_range.mp inside)

/-! ## §2 Trials -/

/-- The figures of a trial, made of its totals of benefits and costs. -/
structure Trial.Balanced (h : Horizon (Exact K)) (g e : Nat → K) (r benefit cost : K)
    (t : Trial (Exact K)) : Prop where
  benefits : t.benefits = (List.range h.years).map fun i => .num (g i * benefit)
  costs : t.costs = (List.range h.years).map fun i => .num (e i * cost)
  net : t.net = (List.range h.years).map fun i => .num (g i * benefit - e i * cost)
  npv : t.npv =
    .num (∑ i ∈ Finset.range h.years, (g i * benefit - e i * cost) / (1 + r) ^ (i + 1))

/-- The rate of a trial that ends is the one that its values carry, or else the default. -/
theorem rate_of_usableRate {α : Type} {h : Horizon α} {values : Table α} {rate : α}
    (usable : h.usableRate values = .ok rate) : h.rate values = .ok rate := by
  unfold Horizon.usableRate at usable
  split at usable
  · cases usable
  · exact usable

variable [LinearOrder K] {r : K}

/-- The worth is a number only if all is that what is left of each year is made of. -/
theorem numbers_of_npv {benefit cost : Exact K} {npv : K}
    (number : ((List.range h.years).map fun i =>
      h.left benefit cost i / .num ((1 + r) ^ (i + 1))).sum = .num npv) :
    ∀ i < h.years, ∃ x g y e, benefit = .num x ∧ h.growth.getD i .nan = .num g ∧
      cost = .num y ∧ h.efficiency.getD i .nan = .num e := by
  intro i within
  obtain ⟨worth, isWorth⟩ := Exact.numbers_of_sum number _
    (List.mem_map.mpr ⟨i, List.mem_range.mpr within, rfl⟩)
  obtain ⟨flow, isFlow⟩ := Exact.number_of_div isWorth
  obtain ⟨inflow, outflow, isInflow, isOutflow⟩ := Exact.numbers_of_sub isFlow
  obtain ⟨x, g, rfl, growth⟩ := Exact.numbers_of_mul isInflow
  obtain ⟨y, e, rfl, efficiency⟩ := Exact.numbers_of_mul isOutflow
  exact ⟨x, g, y, e, rfl, growth, rfl, efficiency⟩

variable [FloorRing K] [RealFunctions K] [UniformSource σ (Exact K)] {plan : Plan (Exact K)}

/-- A trial that ends is rolled up, however much of the stack is taken. -/
theorem rollUp_of_trial {taken : Nat} {s : σ} {t : Trial (Exact K)}
    (ended : ((plan.above taken).trial s).1 = .ok t) :
    ∃ sampled values, plan.rollUp sampled values = .ok t := by
  obtain ⟨sampled, -, values, -, rolled⟩ := trial_eq_ok ended
  exact ⟨_, values, rolled⟩

/-- A trial that ends has a first year, and is worth what is left of its years. -/
theorem npv_of_trial
    (sameYears : plan.horizon.growth.length = plan.horizon.efficiency.length) {taken : Nat} {s : σ}
    {t : Trial (Exact K)} (ended : ((plan.above taken).trial s).1 = .ok t)
    (isRate : plan.horizon.rate t.values = .ok (.num r)) (noLoss : r ≠ -1) :
    0 < plan.horizon.years ∧
      t.npv = ((List.range plan.horizon.years).map fun i =>
        plan.horizon.left (totalOf .benefit t.values plan.categories)
          (totalOf .cost t.values plan.categories) i / .num ((1 + r) ^ (i + 1))).sum := by
  obtain ⟨sampled, values, rolled⟩ := rollUp_of_trial ended
  obtain ⟨rfl, -, benefits, costs, net, ⟨rate, usable, discounted⟩, payback⟩ := rollUp_eq_ok rolled
  obtain rfl := Except.ok.inj ((rate_of_usableRate usable).symm.trans isRate)
  constructor
  · refine Nat.pos_of_ne_zero fun none => ?_
    have growth : plan.horizon.growth = [] := List.eq_nil_of_length_eq_zero none
    have efficiency : plan.horizon.efficiency = [] :=
      List.eq_nil_of_length_eq_zero (sameYears.symm.trans none)
    rw [benefits, costs, growth, efficiency] at payback
    cases payback
  · have growth := eq_map_range plan.horizon.growth .nan
    have efficiency := eq_map_range plan.horizon.efficiency .nan
    rw [← sameYears] at efficiency
    have flows : t.net = (List.range plan.horizon.years).map
        (plan.horizon.left (totalOf .benefit t.values plan.categories)
          (totalOf .cost t.values plan.categories)) := by
      rw [net, benefits, costs, growth, efficiency, List.map_map, List.map_map, List.zipWith_map,
        List.zipWith_self]
      rfl
    rw [flows, discount_eq noLoss] at discounted
    exact (Except.ok.inj discounted).symm

/-- **What a trial comes to**, where its worth is a number. -/
theorem balanced_of_trial (counts : plan.horizon.Counts g e) {taken : Nat} {s : σ}
    {t : Trial (Exact K)} (ended : ((plan.above taken).trial s).1 = .ok t)
    (isRate : plan.horizon.rate t.values = .ok (.num r)) (noLoss : r ≠ -1) {npv : K}
    (number : t.npv = .num npv) :
    ∃ benefit cost, totalOf .benefit t.values plan.categories = .num benefit ∧
      totalOf .cost t.values plan.categories = .num cost ∧
      t.Balanced plan.horizon g e r benefit cost := by
  obtain ⟨first, worth⟩ := npv_of_trial counts.sameYears ended isRate noLoss
  obtain ⟨benefit, -, cost, -, isBenefit, -, isCost, -⟩ :=
    numbers_of_npv (worth.symm.trans number) 0 first
  rw [isBenefit, isCost] at worth
  obtain ⟨sampled, values, rolled⟩ := rollUp_of_trial ended
  obtain ⟨rfl, -, benefits, costs, net, -⟩ := rollUp_eq_ok rolled
  have scaled (f : Nat → K) (total : K) :
      ((List.range plan.horizon.years).map fun i => Exact.num (f i)).map (.num total * ·) =
        (List.range plan.horizon.years).map fun i => .num (f i * total) := by
    rw [List.map_map]
    exact List.map_congr_left fun i _ => congrArg Exact.num (mul_comm total (f i))
  have benefits_eq := benefits
  rw [isBenefit, counts.growth, scaled] at benefits_eq
  have costs_eq := costs
  rw [isCost, counts.efficiency, scaled] at costs_eq
  refine ⟨benefit, cost, isBenefit, isCost, benefits_eq, costs_eq, ?_, ?_⟩
  · rw [net, benefits_eq, costs_eq, List.zipWith_map, List.zipWith_self]
    rfl
  · have numbers : (List.range plan.horizon.years).map (fun i =>
        plan.horizon.left (.num benefit) (.num cost) i / .num ((1 + r) ^ (i + 1))) =
        ((List.range plan.horizon.years).map fun i =>
          (g i * benefit - e i * cost) / (1 + r) ^ (i + 1)).map Exact.num := by
      rw [List.map_map]
      refine List.map_congr_left fun i inside => ?_
      have growth : (1 + r) ^ (i + 1) ≠ 0 :=
        pow_ne_zero _ fun zero => noLoss (eq_neg_of_add_eq_zero_right zero)
      rw [counts.left_eq (List.mem_range.mp inside), Exact.num_div growth, Function.comp_apply]
    rw [worth, numbers, Exact.sum_map_num]
    rfl

/-! ## §3 Means -/

omit [LinearOrder K] [FloorRing K] [RealFunctions K] in
/-- The sum of what is linear in two totals is linear in their sums. -/
theorem sum_flows {β : Type} (items : List β) (benefit cost : β → K) (x y : K) :
    (items.map fun t => x * benefit t - y * cost t).sum =
      x * (items.map benefit).sum - y * (items.map cost).sum := by
  induction items with
  | nil => simp
  | cons t items ih =>
    simp only [List.map_cons, List.sum_cons]
    rw [ih]
    ring

omit [LinearOrder K] [FloorRing K] [RealFunctions K] in
theorem sum_worths {β : Type} (items : List β) (benefit cost : β → K) (count : Nat) (d : Nat → K) :
    (items.map fun t =>
        ∑ i ∈ Finset.range count, (g i * benefit t - e i * cost t) / d i).sum =
      ∑ i ∈ Finset.range count,
        (g i * (items.map benefit).sum - e i * (items.map cost).sum) / d i := by
  induction items with
  | nil => simp
  | cons t items ih =>
    simp only [List.map_cons, List.sum_cons]
    rw [ih, ← Finset.sum_add_distrib]
    exact Finset.sum_congr rfl fun i _ => by ring

omit [UniformSource σ (Exact K)] in
/-- The mean over trials of what is a number in each of them. -/
theorem mean_map_of_num [IsStrictOrderedRing K] {trials : List (Trial (Exact K))}
    (some_trial : trials ≠ []) {f : Trial (Exact K) → Exact K} {x : Trial (Exact K) → K}
    (numbers : ∀ t ∈ trials, f t = .num (x t)) :
    mean (trials.map f) = .num ((trials.map x).sum / trials.length) := by
  have samples : trials.map f = (trials.map x).map Exact.num := by
    rw [List.map_map]
    exact List.map_congr_left numbers
  rw [samples, mean_map_num (by simpa using some_trial), List.length_map]

omit [UniformSource σ (Exact K)] in
/-- The mean over trials of the flow of one year, where each flow is a number. -/
theorem mean_of_year [IsStrictOrderedRing K] {trials : List (Trial (Exact K))}
    (some_trial : trials ≠ []) {flows : Trial (Exact K) → List (Exact K)} {count : Nat}
    {x : Trial (Exact K) → Nat → K}
    (numbers : ∀ t ∈ trials, flows t = (List.range count).map fun i => .num (x t i)) {i : Nat}
    (within : i < count) :
    mean (trials.map fun t => (flows t).getD i nan) =
      .num ((trials.map fun t => x t i).sum / trials.length) := by
  refine mean_map_of_num some_trial fun t member => ?_
  rw [numbers t member, List.getD_eq_getElem?_getD, List.getElem?_map, List.getElem?_range within]
  rfl

/-! ## §4 Whole -/

/-- **The figures of a report add up.** Take a run in exact arithmetic in which every trial has a
worth and all have the same rate `r`, which does not take everything away. Its report is there, with
a result for every year of the horizon. Then there are numbers, the mean total benefits and the mean
total costs, such that each year's mean benefits and costs are these times the factors of that year,
what is left of the year on average is their difference, and the mean worth is what is left of all
years, discounted year by year. -/
theorem report_balanced [IsStrictOrderedRing K]
    (sameYears : plan.horizon.growth.length = plan.horizon.efficiency.length) {start : Nat → σ}
    {signal : Option Signal} {schedule : Schedule} {iterations looks : Nat}
    {trials : List (Trial (Exact K))}
    (ran : (spreadTrials plan start signal schedule iterations looks).1 = .ok trials)
    (numbers : ∀ t ∈ trials, isNaN t.npv = false)
    (rates : ∀ t ∈ trials, plan.horizon.rate t.values = .ok (.num r)) (noLoss : r ≠ -1)
    (names : Table String) (topK : Option Int) :
    ∃ report log, summarize (TrialTables.ofTrials plan trials)
        (plan.categories.map fun c => ⟨c.id, c.name⟩) names plan.horizon.years topK =
          .ok (report, log) ∧
      ∃ (benefit cost npv : K) (net : Nat → K),
        mean (trials.map fun t => totalOf .benefit t.values plan.categories) = .num benefit ∧
        mean (trials.map fun t => totalOf .cost t.values plan.categories) = .num cost ∧
        report.npv.mean = .num npv ∧
        npv = ∑ i ∈ Finset.range plan.horizon.years, net i / (1 + r) ^ (i + 1) ∧
        report.years.length = plan.horizon.years ∧
        ∀ i < plan.horizon.years, ∃ result growth efficiency,
          report.years[i]? = some result ∧ result.year = i + 1 ∧
          plan.horizon.growth[i]? = some (.num growth) ∧
          plan.horizon.efficiency[i]? = some (.num efficiency) ∧
          result.benefits.mean = .num (growth * benefit) ∧
          result.costs.mean = .num (efficiency * cost) ∧
          result.net.mean = .num (net i) ∧
          net i = growth * benefit - efficiency * cost := by
  obtain ⟨some_trial, taken, ended⟩ := trials_of_spreadTrials ran
  -- The first trial tells that the factors are numbers, and then every trial is made of them.
  obtain ⟨first, isTrial⟩ := List.exists_mem_of_ne_nil trials some_trial
  obtain ⟨g, e, counts⟩ : ∃ g e, plan.horizon.Counts g e := by
    obtain ⟨s, done⟩ := ended first isTrial
    obtain ⟨npv, isNumber⟩ := Exact.isNaN_eq_false_iff.mp (numbers first isTrial)
    obtain ⟨-, worth⟩ := npv_of_trial sameYears done (rates first isTrial) noLoss
    exact exists_counts sameYears (numbers_of_npv (worth.symm.trans isNumber))
  have figures : ∀ t ∈ trials, ∃ benefit cost,
      totalOf .benefit t.values plan.categories = .num benefit ∧
        totalOf .cost t.values plan.categories = .num cost ∧
        t.Balanced plan.horizon g e r benefit cost := by
    intro t member
    obtain ⟨s, done⟩ := ended t member
    obtain ⟨npv, isNumber⟩ := Exact.isNaN_eq_false_iff.mp (numbers t member)
    exact balanced_of_trial counts done (rates t member) noLoss isNumber
  choose! benefit cost isBenefit isCost balanced using figures
  obtain ⟨report, log, reported, npv, years⟩ := summarize_ofTrials plan trials names topK
  refine ⟨report, log, reported, (trials.map benefit).sum / trials.length,
    (trials.map cost).sum / trials.length, _,
    fun i => g i * ((trials.map benefit).sum / trials.length) -
      e i * ((trials.map cost).sum / trials.length),
    mean_map_of_num some_trial isBenefit, mean_map_of_num some_trial isCost, ?_, rfl, ?_,
    fun i within => ⟨yearlyResultOf trials i, g i, e i, ?_, rfl, ?_, ?_, ?_, ?_, ?_, rfl⟩⟩
  · rw [npv]
    refine (mean_map_of_num some_trial fun t member => (balanced t member).npv).trans ?_
    rw [sum_worths, Finset.sum_div]
    exact congrArg Exact.num (Finset.sum_congr rfl fun i _ => by ring)
  · rw [years, List.length_map, List.length_range]
  · rw [years, List.getElem?_map, List.getElem?_range within, Option.map_some]
  · rw [counts.growth, List.getElem?_map, List.getElem?_range within, Option.map_some]
  · rw [counts.efficiency, List.getElem?_map, List.getElem?_range within, Option.map_some]
  · refine (mean_of_year some_trial (fun t member => (balanced t member).benefits) within).trans ?_
    rw [List.sum_map_mul_left, mul_div_assoc]
  · refine (mean_of_year some_trial (fun t member => (balanced t member).costs) within).trans ?_
    rw [List.sum_map_mul_left, mul_div_assoc]
  · refine (mean_of_year some_trial (fun t member => (balanced t member).net) within).trans ?_
    rw [sum_flows, sub_div, mul_div_assoc, mul_div_assoc]

/-- A lease for two years, without estimates. In the second year its rent doubles and its fee is
halved. -/
noncomputable def leasePlan : Plan (Exact ℝ) :=
  { inputs := [⟨"rent", "rent", .fixed (nat 100), .null⟩, ⟨"fee", "fee", .fixed (nat 30), .null⟩]
    formulas := [], order := []
    categories := [⟨"income", "income", .benefit, ["rent"]⟩,
      ⟨"spending", "spending", .cost, ["fee"]⟩]
    horizon := ⟨[.num 1, nat 2], [.num 1, decimal 5 1], .ok (.num 1), none, none, []⟩ }

/-- At a rate of one, 70 and 185 are worth 35 and 46.25. -/
theorem leasePlan_trial (s : Listed (Exact ℝ)) :
    ∃ t, leasePlan.trial s = (.ok t, s) ∧ t.npv = .num (325 / 4) := by
  have sampled : sampleInputs leasePlan.inputs s =
      (.ok [("rent", .num 100), ("fee", .num 30)], s) := rfl
  have table : Table.ofEntries [("rent", (.num 100 : Exact ℝ)), ("fee", .num 30)] =
      [("rent", .num 100), ("fee", .num 30)] := rfl
  have computed : leasePlan.complete [("rent", .num 100), ("fee", .num 30)] =
      .ok [("rent", .num 100), ("fee", .num 30)] := rfl
  have benefit : totalOf .benefit [("rent", (.num 100 : Exact ℝ)), ("fee", .num 30)]
      leasePlan.categories = .num 100 := by
    show sumLeft [sumLeft [(.num 100 : Exact ℝ)]] = .num 100
    simp [Exact.sumLeft_eq]
  have cost : totalOf .cost [("rent", (.num 100 : Exact ℝ)), ("fee", .num 30)]
      leasePlan.categories = .num 30 := by
    show sumLeft [sumLeft [(.num 30 : Exact ℝ)]] = .num 30
    simp [Exact.sumLeft_eq]
  have growth : leasePlan.horizon.growth = [.num 1, .num 2] := rfl
  have efficiency : leasePlan.horizon.efficiency = [.num 1, .num (1 / 2)] := by
    show [.num 1, .num ((5 : Nat) / 10 ^ 1)] = [.num 1, (.num (1 / 2) : Exact ℝ)]
    norm_num
  have rate : leasePlan.horizon.usableRate [("rent", (.num 100 : Exact ℝ)), ("fee", .num 30)] =
      .ok (.num 1) := rfl
  have worth : discount [(.num (100 - 30) : Exact ℝ), .num (100 * 2 - 30 * (1 / 2))] (.num 1) =
      .ok (.num (325 / 4)) := by
    have flows : [(.num (100 - 30) : Exact ℝ), .num (100 * 2 - 30 * (1 / 2))] =
        (List.range 2).map fun i => .num (if i = 0 then 70 else 185) := by
      norm_num [List.range_succ]
    rw [flows, discount_eq (by norm_num)]
    norm_num [List.range_succ, Exact.num_div, Exact.zero_eq]
  obtain ⟨payback, recovered⟩ : ∃ payback, paybackMonths?
      [(.num 100 : Exact ℝ), .num (100 * 2)] [.num 30, .num (30 * (1 / 2))] = some payback := by
    unfold paybackMonths?
    split
    · exact ⟨_, rfl⟩
    · dsimp only
      split <;> exact ⟨_, rfl⟩
  rw [Plan.trial, sampled]
  dsimp only
  rw [table, Plan.settle, computed]
  dsimp only
  rw [Plan.rollUp]
  simp only [benefit, cost, growth, efficiency, rate, List.map_cons, List.map_nil, Exact.num_mul,
    List.zipWith_cons_cons, List.zipWith_nil_left, Exact.num_sub, mul_one, worth, recovered]
  exact ⟨_, rfl, rfl⟩

/-- The theorem at a run of the lease. -/
theorem report_balanced_lease :
    ∃ trials report log,
      (spreadTrials leasePlan (fun _ => (⟨[], 0⟩ : Listed (Exact ℝ))) none fourWorkers 1 0).1 =
        .ok trials ∧
      summarize (TrialTables.ofTrials leasePlan trials)
        [⟨"income", "income"⟩, ⟨"spending", "spending"⟩] [] 2 none = .ok (report, log) ∧
      ∃ (npv : ℝ) (net : Nat → ℝ), report.npv.mean = .num npv ∧
        npv = ∑ i ∈ Finset.range 2, net i / (1 + 1) ^ (i + 1) := by
  obtain ⟨t, ended, worth⟩ := leasePlan_trial ⟨[], 0⟩
  have untold : NeverStops none := fun token given => nomatch given
  have ran := oneTrial_ends ended untold
  have numbers : ∀ t' ∈ [t], isNaN t'.npv = false := by
    intro t' member
    rw [List.mem_singleton.mp member, worth, Exact.isNaN_num]
  obtain ⟨report, log, reported, -, -, npv, net, -, -, isWorth, adds, -⟩ :=
    report_balanced rfl ran numbers (fun _ _ => rfl) (by norm_num : (1 : ℝ) ≠ -1) [] none
  exact ⟨[t], report, log, ran, reported, npv, net, isWorth, adds⟩

end BusinessCase
