/-
BusinessCase.Proofs.Simulation.Discounting — the laws of discounting in exact
arithmetic.

The worth of flows is a sum over the years with growing powers in it, which is
the same as putting off by a year again and again: what comes later is worth
what it would be worth a year earlier, divided by one plus the rate. All laws
follow from that one by induction on the years.

  §1 Worth — `worth`, and putting off by a year, `worth_cons`.
  §2 Flows — the worth of sums, of multiples and of larger flows.
  §3 Rates — the worth at a higher rate.
  §4 Whole — `discount_laws`.
-/
import BusinessCase.Proofs.Simulation.CashFlow

namespace BusinessCase

variable {K : Type} [Field K]

/-! ## §1 Worth -/

/-- What flows are worth today: each is divided by one plus the rate, to the power of the years
until it comes. The first comes in a year. -/
def worth (flows : List K) (rate : K) : K :=
  ∑ i : Fin flows.length, flows[i] / (1 + rate) ^ (i.val + 1)

@[simp] theorem worth_nil (rate : K) : worth [] rate = 0 := by
  simp [worth]

/-- Flows that are put off by a year, behind a first one. -/
theorem worth_cons (flow : K) (rest : List K) (rate : K) :
    worth (flow :: rest) rate = (flow + worth rest rate) / (1 + rate) := by
  have putOff (i : Fin rest.length) : rest[i] / (1 + rate) ^ (i.val + 1 + 1) =
      rest[i] / (1 + rate) ^ (i.val + 1) / (1 + rate) := by
    rw [div_div, ← pow_succ]
  have split : worth (flow :: rest) rate =
      flow / (1 + rate) ^ (0 + 1) + ∑ i : Fin rest.length, rest[i] / (1 + rate) ^ (i.val + 1 + 1) :=
    Fin.sum_univ_succ _
  rw [split, Finset.sum_congr rfl fun i _ => putOff i, ← Finset.sum_div, zero_add, pow_one,
    ← add_div, worth]

section Rules

variable [LinearOrder K] [FloorRing K] [RealFunctions K]

/-- What discounting makes of the flows is this number. -/
def Discounts (flows : List K) (rate result : K) : Prop :=
  discount (flows.map Exact.num) (.num rate) = .ok (.num result)

theorem discounts_worth {rate : K} (noLoss : rate ≠ -1) (flows : List K) :
    Discounts flows rate (worth flows rate) := by
  have nonzero : 1 + rate ≠ 0 := fun zero => noLoss (eq_neg_of_add_eq_zero_right zero)
  have given : flows.map Exact.num =
      (List.range flows.length).map fun i => .num (flows.getD i 0) := by
    refine List.ext_getElem (by simp) fun i inside _ => ?_
    have within : i < flows.length := by simpa using inside
    simp [List.getD, within]
  have parts : (List.range flows.length).map
      (fun i => Exact.num (flows.getD i 0) / .num ((1 + rate) ^ (i + 1))) =
      ((List.range flows.length).map fun i =>
        flows.getD i 0 / (1 + rate) ^ (i + 1)).map Exact.num := by
    rw [List.map_map]
    exact List.map_congr_left fun i _ => Exact.num_div (pow_ne_zero _ nonzero)
  have sum : ((List.range flows.length).map fun i =>
      flows.getD i 0 / (1 + rate) ^ (i + 1)).sum = worth flows rate := by
    show ∑ i ∈ Finset.range flows.length, flows.getD i 0 / (1 + rate) ^ (i + 1) = worth flows rate
    rw [Finset.sum_range, worth]
    simp [List.getD]
  rw [Discounts, given, discount_eq noLoss, parts, Exact.sum_map_num, sum]

end Rules

/-! ## §2 Flows -/

variable {flows others : List K} {rate : K}

theorem worth_add (sameYears : flows.length = others.length) :
    worth (List.zipWith (· + ·) flows others) rate = worth flows rate + worth others rate := by
  induction flows generalizing others with
  | nil =>
    obtain rfl := List.length_eq_zero_iff.mp sameYears.symm
    simp
  | cons flow flows ih =>
    obtain ⟨other, others, rfl⟩ := List.exists_cons_of_length_eq_add_one sameYears.symm
    have rest := ih (Nat.succ.inj sameYears)
    simp only [List.zipWith_cons_cons, worth_cons, rest]
    ring

theorem worth_mul (factor : K) (flows : List K) (rate : K) :
    worth (flows.map (factor * ·)) rate = factor * worth flows rate := by
  induction flows with
  | nil => simp
  | cons flow flows ih =>
    simp only [List.map_cons, worth_cons, ih]
    ring

section Ordered

variable [LinearOrder K] [IsStrictOrderedRing K]

/-- A rate that leaves something of a flow has a positive divisor. -/
theorem one_add_pos (leaves : -1 < rate) : 0 < 1 + rate := neg_lt_iff_pos_add'.mp leaves

theorem worth_mono (leaves : -1 < rate) (larger : List.Forall₂ (· ≤ ·) flows others) :
    worth flows rate ≤ worth others rate := by
  induction larger with
  | nil => exact le_rfl
  | cons first _ ih =>
    rw [worth_cons, worth_cons]
    exact div_le_div_of_nonneg_right (add_le_add first ih) (one_add_pos leaves).le

theorem worth_nonneg (leaves : -1 < rate) (nonneg : ∀ flow ∈ flows, 0 ≤ flow) :
    0 ≤ worth flows rate := by
  induction flows with
  | nil => simp
  | cons flow flows ih =>
    obtain ⟨first, rest⟩ := List.forall_mem_cons.mp nonneg
    rw [worth_cons]
    exact div_nonneg (add_nonneg first (ih rest)) (one_add_pos leaves).le

/-! ## §3 Rates -/

/-- A higher rate makes less of what is paid out. -/
theorem worth_anti (leaves : -1 < rate) {higher : K} (le : rate ≤ higher)
    (nonneg : ∀ flow ∈ flows, 0 ≤ flow) : worth flows higher ≤ worth flows rate := by
  induction flows with
  | nil => simp
  | cons flow flows ih =>
    obtain ⟨first, rest⟩ := List.forall_mem_cons.mp nonneg
    have later := worth_nonneg leaves rest
    rw [worth_cons, worth_cons]
    exact div_le_div₀ (add_nonneg first later) (add_le_add_right (ih rest) flow)
      (one_add_pos leaves) (add_le_add_right le 1)

/-! ## §4 Whole -/

/-- **The laws of discounting.** At a rate that does not take everything away, flows have a worth,
which is the sum of each flow divided by the power for its year. The worth of sums of flows is the
sum of their worths, that of a multiple is the multiple, and putting all flows off by a year, behind
a first one, divides by one plus the rate. Where the rate leaves something of a flow, larger flows
are worth no less; and flows that are all paid out are worth no more at a higher rate. -/
theorem discount_laws [FloorRing K] [RealFunctions K] (noLoss : rate ≠ -1) (flows : List K) :
    Discounts flows rate (worth flows rate) ∧
      (∀ others : List K, flows.length = others.length →
        Discounts (List.zipWith (· + ·) flows others) rate
          (worth flows rate + worth others rate)) ∧
      (∀ factor, Discounts (flows.map (factor * ·)) rate (factor * worth flows rate)) ∧
      (∀ flow, Discounts (flow :: flows) rate ((flow + worth flows rate) / (1 + rate))) ∧
      (-1 < rate → ∀ larger, List.Forall₂ (· ≤ ·) flows larger →
        ∃ more, Discounts larger rate more ∧ worth flows rate ≤ more) ∧
      (-1 < rate → (∀ flow ∈ flows, 0 ≤ flow) → ∀ higher, rate ≤ higher →
        ∃ less, Discounts flows higher less ∧ less ≤ worth flows rate) := by
  refine ⟨discounts_worth noLoss flows, ?_, ?_, ?_, ?_, ?_⟩
  · intro others sameYears
    rw [← worth_add sameYears]
    exact discounts_worth noLoss _
  · intro factor
    rw [← worth_mul]
    exact discounts_worth noLoss _
  · intro flow
    rw [← worth_cons]
    exact discounts_worth noLoss _
  · intro leaves larger each
    exact ⟨_, discounts_worth noLoss larger, worth_mono leaves each⟩
  · intro leaves nonneg higher le
    exact ⟨_, discounts_worth (leaves.trans_le le).ne' flows, worth_anti leaves le nonneg⟩

end Ordered

/-- The theorem at three years with a rate of a quarter, of which the last pays most. -/
theorem discount_laws_quarter :
    (1 / 4 : ℝ) ≠ -1 ∧ Discounts [100, 107, 115] (1 / 4 : ℝ) (5184 / 25) ∧
      ∃ less, Discounts [100, 107, 115] (1 / 2 : ℝ) less ∧ less ≤ 5184 / 25 := by
  have noLoss : (1 / 4 : ℝ) ≠ -1 := by norm_num
  have total : worth [100, 107, 115] (1 / 4 : ℝ) = 5184 / 25 := by
    simp only [worth_cons, worth_nil]
    norm_num
  obtain ⟨whole, -, -, -, -, higher⟩ := discount_laws noLoss [100, 107, 115]
  rw [total] at whole higher
  exact ⟨noLoss, whole, higher (by norm_num) (by simp) (1 / 2) (by norm_num)⟩

end BusinessCase
