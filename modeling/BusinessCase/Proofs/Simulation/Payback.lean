/-
BusinessCase.Proofs.Simulation.Payback — when costs have come back, in exact
arithmetic.

The month that is searched for step by step, with a running balance, is the
first one whose balance is not below zero; and the balance after some months is
a sum over these months, each of which leaves a twelfth of what its year leaves.
Better years have a balance that is no smaller in any month, so the month that
is found cannot come later.

  §1 Search  — `recoveryMonth?` finds the first month.
  §2 Months  — the flow of each month, `balanceAfter`.
  §3 Payback — `IsPayback`, and that better balances pay back no later.
  §4 Whole   — `payback_exact`.
-/
import BusinessCase.Proofs.Pointwise
import BusinessCase.Proofs.Scalar.Exact
import BusinessCase.Simulation.CashFlow

namespace BusinessCase

open Scalar

/-! ## §1 Search -/

/-- Where the months are counted from makes no difference to the search. -/
theorem recoveryMonth?_shift {α : Type} [Scalar α] (balance : α) (month : Nat) (flows : List α) :
    recoveryMonth? balance month flows = (recoveryMonth? balance 0 flows).map (· + month) := by
  induction flows generalizing balance month with
  | nil => rfl
  | cons flow rest ih =>
    unfold recoveryMonth?
    dsimp only
    split
    · simp [Nat.add_comm]
    · rw [ih (balance + flow) (month + 1), ih (balance + flow) (0 + 1), Option.map_map]
      congr 1
      funext m
      simp only [Function.comp_apply]
      omega

variable {K : Type} [Field K] [LinearOrder K]

/-- The months in which a balance that goes on so is not below zero. -/
def recovered (balance : K) (flows : List K) : Set Nat :=
  {m | 1 ≤ m ∧ m ≤ flows.length ∧ 0 ≤ balance + (flows.take m).sum}

theorem mem_recovered_cons {balance flow : K} {rest : List K} {m : Nat} :
    m + 1 ∈ recovered balance (flow :: rest) ↔
      m = 0 ∧ 0 ≤ balance + flow ∨ m ∈ recovered (balance + flow) rest := by
  cases m with
  | zero => simp [recovered]
  | succ m => simp [recovered, add_assoc]

/-- **The search finds the first month** in which the balance is not below zero. -/
theorem recoveryMonth?_exact [FloorRing K] [RealFunctions K] (balance : K) (flows : List K) :
    (∀ m, recoveryMonth? (.num balance) 0 (flows.map Exact.num) = some m →
      IsLeast (recovered balance flows) m) ∧
    (recoveryMonth? (.num balance) 0 (flows.map Exact.num) = none →
      recovered balance flows = ∅) := by
  induction flows generalizing balance with
  | nil =>
    constructor
    · intro m found
      cases found
    · intro _
      refine Set.eq_empty_of_forall_notMem fun m inside => ?_
      exact Nat.not_succ_le_zero 0 (inside.1.trans inside.2.1)
  | cons flow rest ih =>
    obtain ⟨later, never⟩ := ih (balance + flow)
    have zero : (0 : Nat) ∉ recovered balance (flow :: rest) := fun inside =>
      absurd inside.1 (by decide)
    have searched : recoveryMonth? (.num balance) 0 ((flow :: rest).map Exact.num) =
        if 0 ≤ balance + flow then some 1
        else (recoveryMonth? (.num (balance + flow)) 0 (rest.map Exact.num)).map (· + 1) := by
      rw [List.map_cons, recoveryMonth?, Exact.num_add, recoveryMonth?_shift _ (0 + 1)]
      simp
    rw [searched]
    split
    · next enough =>
      constructor
      · intro m found
        obtain rfl := Option.some.inj found
        exact ⟨mem_recovered_cons.mpr (.inl ⟨rfl, enough⟩), fun m inside => inside.1⟩
      · intro none
        cases none
    · next below =>
      constructor
      · intro m found
        obtain ⟨k, first, rfl⟩ := Option.map_eq_some_iff.mp found
        obtain ⟨inside, least⟩ := later k first
        refine ⟨mem_recovered_cons.mpr (.inr inside), fun m other => ?_⟩
        cases m with
        | zero => exact absurd other zero
        | succ m =>
          rcases mem_recovered_cons.mp other with ⟨-, enough⟩ | behind
          · exact absurd enough below
          · exact Nat.succ_le_succ (least behind)
      · intro none
        have empty := never (Option.map_eq_none_iff.mp none)
        refine Set.eq_empty_of_forall_notMem fun m other => ?_
        cases m with
        | zero => exact zero other
        | succ m =>
          rcases mem_recovered_cons.mp other with ⟨-, enough⟩ | behind
          · exact below enough
          · rw [empty] at behind
            exact behind

/-! ## §2 Months -/

/-- What a month leaves, the months being counted from zero: a twelfth of what its year does. -/
def monthlyNet (benefits costs : List K) (month : Nat) : K :=
  (benefits.getD (month / 12) 0 - costs.getD (month / 12) 0) / 12

/-- The balance after so many months. The costs of the first year are paid before the first. -/
def balanceAfter (benefits costs : List K) (months : Nat) : K :=
  -costs.headD 0 + ∑ month ∈ Finset.range months, monthlyNet benefits costs month

omit [LinearOrder K] in
theorem sum_take (xs : List K) (m : Nat) :
    (xs.take m).sum = ∑ i ∈ Finset.range m, xs.getD i 0 := by
  induction xs generalizing m with
  | nil => simp
  | cons x xs ih =>
    cases m with
    | zero => rfl
    | succ m =>
      rw [List.take_succ_cons, List.sum_cons, ih, Finset.sum_range_succ', add_comm]
      rfl

/-- Where each item is repeated so often, the place of an item is the place of its group. -/
theorem getD_flatMap_replicate {α : Type} {count : Nat} (positive : 0 < count) (xs : List α)
    (default : α) (i : Nat) :
    (xs.flatMap (List.replicate count)).getD i default = xs.getD (i / count) default := by
  induction xs generalizing i with
  | nil => rfl
  | cons x xs ih =>
    rw [List.flatMap_cons]
    by_cases first : i < count
    · rw [List.getD_append _ _ _ _ (by simpa using first), List.getD_replicate _ first,
        Nat.div_eq_of_lt first, List.getD_cons_zero]
    · rw [List.getD_append_right _ _ _ _ (by simpa using first), List.length_replicate, ih,
        Nat.div_eq_sub_div positive (not_lt.mp first), List.getD_cons_succ]

/-- The net flow of every month. -/
def netFlows (benefits costs : List K) : List K :=
  (List.zipWith (fun benefit cost => (benefit - cost) / 12) benefits costs).flatMap
    (List.replicate 12)

theorem monthlyFlows_map_num [FloorRing K] [RealFunctions K] (benefits costs : List K) :
    monthlyFlows (benefits.map Exact.num) (costs.map Exact.num) =
      (netFlows benefits costs).map Exact.num := by
  have twelve : ((12 : Nat) : K) ≠ 0 := Nat.cast_ne_zero.mpr (by decide)
  have part (b c : K) : (Exact.num b - .num c) / nat 12 = .num ((b - c) / 12) := by
    rw [Exact.num_sub, Exact.nat_eq, Exact.num_div twelve, Nat.cast_ofNat]
  have parts : List.zipWith (fun b c => (b - c) / nat 12) (benefits.map Exact.num)
      (costs.map Exact.num) =
      (List.zipWith (fun b c => (b - c) / 12) benefits costs).map Exact.num := by
    rw [List.zipWith_map, List.map_zipWith]
    simp only [part]
  rw [monthlyFlows, parts, netFlows, List.flatMap_map, List.map_flatMap]
  simp only [List.map_replicate]

section SameYears

variable {benefits costs : List K} (sameYears : benefits.length = costs.length)

include sameYears

omit [LinearOrder K] in
theorem length_netFlows : (netFlows benefits costs).length = 12 * benefits.length := by
  rw [netFlows, List.length_flatMap]
  simp only [List.length_replicate, List.map_const', List.length_zipWith, sameYears, min_self,
    List.sum_replicate, smul_eq_mul, Nat.mul_comm]

omit [LinearOrder K] in
theorem getD_zipWith_sub_div (year : Nat) :
    (List.zipWith (fun b c => (b - c) / 12) benefits costs).getD year 0 =
      (benefits.getD year 0 - costs.getD year 0) / 12 := by
  induction benefits generalizing costs year with
  | nil =>
    obtain rfl := List.length_eq_zero_iff.mp sameYears.symm
    simp
  | cons benefit benefits ih =>
    obtain ⟨cost, costs, rfl⟩ := List.exists_cons_of_length_eq_add_one sameYears.symm
    cases year with
    | zero => rfl
    | succ year => exact ih (Nat.succ.inj sameYears) year

omit [LinearOrder K] in
/-- The balance is what the search adds up. -/
theorem balanceAfter_eq (months : Nat) :
    balanceAfter benefits costs months =
      -costs.headD 0 + ((netFlows benefits costs).take months).sum := by
  rw [sum_take, balanceAfter]
  congr 1
  refine Finset.sum_congr rfl fun month _ => ?_
  rw [netFlows, getD_flatMap_replicate (by decide), getD_zipWith_sub_div sameYears, monthlyNet]

/-- The months in which the search ends. -/
theorem recovered_netFlows : recovered (-costs.headD 0) (netFlows benefits costs) =
    {m | 1 ≤ m ∧ m ≤ 12 * benefits.length ∧ 0 ≤ balanceAfter benefits costs m} := by
  simp only [recovered, length_netFlows sameYears, balanceAfter_eq sameYears]

end SameYears

/-- Better years have a balance that is no smaller after any month. -/
theorem balanceAfter_mono [IsStrictOrderedRing K] {benefits costs more fewer : List K}
    (larger : List.Forall₂ (· ≤ ·) benefits more) (smaller : List.Forall₂ (· ≤ ·) fewer costs)
    (months : Nat) :
    balanceAfter benefits costs months ≤ balanceAfter more fewer months := by
  have start : -costs.headD 0 ≤ -fewer.headD 0 := by
    simpa [List.headD_eq_head?_getD, List.head?_eq_getElem?] using getD_le_getD smaller 0 0
  refine add_le_add start (Finset.sum_le_sum fun month _ => ?_)
  have benefit := getD_le_getD larger 0 (month / 12)
  have cost := getD_le_getD smaller 0 (month / 12)
  exact div_le_div_of_nonneg_right (sub_le_sub benefit cost) (by norm_num)

/-! ## §3 Payback -/

/-- Costs have come back in this month: it is the first one whose balance is not below zero, or
else the last, there being none. -/
def IsPayback (balance : Nat → K) (last month : Nat) : Prop :=
  IsLeast {m | 1 ≤ m ∧ m ≤ last ∧ 0 ≤ balance m} month ∨
    month = last ∧ ∀ m, 1 ≤ m → m ≤ last → balance m < 0

/-- A balance that is no smaller in any month pays back no later. -/
theorem IsPayback.le {balance other : Nat → K} {last month sooner : Nat}
    (payback : IsPayback balance last month) (better : ∀ m, balance m ≤ other m)
    (payback' : IsPayback other last sooner) : sooner ≤ month := by
  rcases payback with ⟨⟨first, within, enough⟩, -⟩ | ⟨rfl, -⟩
  · rcases payback' with ⟨-, least⟩ | ⟨rfl, never⟩
    · exact least ⟨first, within, enough.trans (better month)⟩
    · exact absurd (enough.trans (better month)) (never month first within).not_ge
  · rcases payback' with ⟨⟨-, within, -⟩, -⟩ | ⟨rfl, -⟩
    · exact within
    · exact le_rfl

/-! ## §4 Whole -/

section Rules

variable [FloorRing K] [RealFunctions K] {benefits costs : List K}

/-- What is found is the month of the search, or else the last. -/
theorem paybackMonths?_eq (sameYears : benefits.length = costs.length) (someYear : benefits ≠ []) :
    paybackMonths? (benefits.map Exact.num) (costs.map Exact.num) =
      some (.months ((recoveryMonth? (.num (-costs.headD 0)) 0
        (monthlyFlows (benefits.map Exact.num) (costs.map Exact.num))).getD
          (12 * benefits.length))) := by
  have numbers (xs : List K) : (xs.map Exact.num).any isNaN = false := by simp
  cases costs with
  | nil => exact absurd (List.length_eq_zero_iff.mp sameYears) someYear
  | cons first rest =>
    have negated : -Exact.num first = .num (-first) := rfl
    unfold paybackMonths?
    rw [numbers, numbers, Bool.or_self, if_neg Bool.false_ne_true, List.length_map, List.map_cons,
      List.headD_cons]
    dsimp only
    rw [negated]
    cases recoveryMonth? (.num (-first)) 0
      (monthlyFlows (benefits.map Exact.num) (.num first :: rest.map Exact.num)) <;> rfl

/-- There is a month in which costs have come back, or which is the last. -/
theorem exists_paybackMonths? (sameYears : benefits.length = costs.length)
    (someYear : benefits ≠ []) :
    ∃ month, paybackMonths? (benefits.map Exact.num) (costs.map Exact.num) =
        some (.months month) ∧
      IsPayback (balanceAfter benefits costs) (12 * benefits.length) month := by
  refine ⟨_, paybackMonths?_eq sameYears someYear, ?_⟩
  obtain ⟨finds, never⟩ := recoveryMonth?_exact (-costs.headD 0) (netFlows benefits costs)
  rw [recovered_netFlows sameYears, ← monthlyFlows_map_num] at finds never
  cases search : recoveryMonth? (.num (-costs.headD 0)) 0
      (monthlyFlows (benefits.map Exact.num) (costs.map Exact.num)) with
  | some month => exact .inl (finds month search)
  | none =>
    refine .inr ⟨rfl, fun m first within => not_le.mp fun enough => ?_⟩
    have inside : m ∈ (∅ : Set Nat) := never search ▸ ⟨first, within, enough⟩
    exact inside

variable [IsStrictOrderedRing K]

/-- **When costs have come back.** For benefits and costs of the same years, of which there is one,
it is the first month after which the balance is not below zero, the costs of the first year having
been paid at the start and each year's net flow being spread evenly over its months; and it is the
last month of all where there is none. With benefits that are no smaller and costs that are no
larger it does not come later. -/
theorem payback_exact (sameYears : benefits.length = costs.length) (someYear : benefits ≠ []) :
    ∃ month, paybackMonths? (benefits.map Exact.num) (costs.map Exact.num) =
        some (.months month) ∧
      IsPayback (balanceAfter benefits costs) (12 * benefits.length) month ∧
      ∀ more fewer, List.Forall₂ (· ≤ ·) benefits more → List.Forall₂ (· ≤ ·) fewer costs →
        ∃ sooner, paybackMonths? (more.map Exact.num) (fewer.map Exact.num) =
          some (.months sooner) ∧ sooner ≤ month := by
  obtain ⟨month, found, payback⟩ := exists_paybackMonths? sameYears someYear
  refine ⟨month, found, payback, fun more fewer larger smaller => ?_⟩
  have sameYears' : more.length = fewer.length :=
    larger.length_eq.symm.trans (sameYears.trans smaller.length_eq.symm)
  have someYear' : more ≠ [] := fun none =>
    someYear (List.length_eq_zero_iff.mp (larger.length_eq.trans (by rw [none]; rfl)))
  obtain ⟨sooner, found', payback'⟩ := exists_paybackMonths? sameYears' someYear'
  rw [← larger.length_eq] at payback'
  exact ⟨sooner, found', payback.le (balanceAfter_mono larger smaller) payback'⟩

end Rules

/-- The theorem where ten is spent first and six comes in every month of the first year: the second
month brings back the costs, and it still does when the second year's benefits are larger. -/
theorem payback_exact_second_month :
    ([72, 0] : List ℝ).length = ([10, 0] : List ℝ).length ∧ ([72, 0] : List ℝ) ≠ [] ∧
      paybackMonths? (([72, 0] : List ℝ).map Exact.num) (([10, 0] : List ℝ).map Exact.num) =
        some (.months 2) ∧
      ∃ sooner, paybackMonths? (([72, 5] : List ℝ).map Exact.num)
        (([10, 0] : List ℝ).map Exact.num) = some (.months sooner) ∧ sooner ≤ 2 := by
  have sameYears : ([72, 0] : List ℝ).length = ([10, 0] : List ℝ).length := rfl
  have someYear : ([72, 0] : List ℝ) ≠ [] := by simp
  obtain ⟨month, found, payback, better⟩ := payback_exact sameYears someYear
  have below : balanceAfter [72, 0] [10, (0 : ℝ)] 1 < 0 := by
    norm_num [balanceAfter, monthlyNet, Finset.sum_range_succ]
  have enough : 0 ≤ balanceAfter [72, 0] [10, (0 : ℝ)] 2 := by
    norm_num [balanceAfter, monthlyNet, Finset.sum_range_succ]
  have second : month = 2 := by
    rcases payback with ⟨⟨first, within, reached⟩, least⟩ | ⟨-, never⟩
    · have atMost : month ≤ 2 := least ⟨by decide, by decide, enough⟩
      have other : month ≠ 1 := fun one => below.not_ge (one ▸ reached)
      omega
    · exact absurd enough (never 2 (by decide) (by decide)).not_ge
  subst second
  exact ⟨sameYears, someYear, found, better [72, 5] [10, 0] (by simp) (by simp)⟩

end BusinessCase
