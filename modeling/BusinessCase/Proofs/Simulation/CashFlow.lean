/-
BusinessCase.Proofs.Simulation.CashFlow — what yearly flows are worth in exact
arithmetic.

At a rate that does not take everything away, the flow of the year `t` counts
for its part `1 / (1 + rate) ^ t`, the first year being year one.
-/
import BusinessCase.Proofs.Scalar.Exact
import BusinessCase.Proofs.Steps
import BusinessCase.Simulation.CashFlow

namespace BusinessCase

open Scalar

variable {K : Type} [Field K] [LinearOrder K] [FloorRing K] [RealFunctions K] {r : K}

theorem discountedFlows_eq (noLoss : 1 + r ≠ 0) (year count : Nat) (flow : Nat → Exact K) :
    discountedFlows (.num r) year ((List.range count).map flow) =
      .ok ((List.range count).map fun i => flow i / .num ((1 + r) ^ (year + i))) := by
  induction count generalizing year flow with
  | zero => rfl
  | succ count ih =>
    have growth : (nat 1 + .num r : Exact K) = .num (1 + r) := by
      rw [Exact.nat_eq, Exact.num_add, Nat.cast_one]
    have worth : divide (flow 0) (.num ((1 + r) ^ year)) =
        .ok (flow 0 / .num ((1 + r) ^ (year + 0))) := by
      rw [divide, Exact.nat_eq, Nat.cast_zero, Exact.eq_num,
        decide_eq_false (pow_ne_zero year noLoss), if_neg Bool.false_ne_true, Nat.add_zero]
    have others : discountedFlows (.num r) (year + 1) ((List.range count).map (flow ∘ Nat.succ)) =
        .ok ((List.range count).map
          ((fun i => flow i / .num ((1 + r) ^ (year + i))) ∘ Nat.succ)) := by
      rw [ih (year + 1) (flow ∘ Nat.succ)]
      refine congrArg Except.ok (List.map_congr_left fun i _ => ?_)
      rw [Function.comp_apply, Function.comp_apply, Nat.succ_eq_add_one, Nat.add_assoc,
        Nat.add_comm 1]
    rw [List.range_succ_eq_map, List.map_cons, List.map_cons, List.map_map, List.map_map,
      discountedFlows, growth, bind_of_eq_ok (Exact.powerNat_num (1 + r) year),
      bind_of_eq_ok worth, bind_of_eq_ok others]

/-- **What yearly flows are worth**, each discounted for the years until it comes. -/
theorem discount_eq (noLoss : r ≠ -1) (count : Nat) (flow : Nat → Exact K) :
    discount ((List.range count).map flow) (.num r) =
      .ok ((List.range count).map fun i => flow i / .num ((1 + r) ^ (i + 1))).sum := by
  have nonzero : 1 + r ≠ 0 := fun zero => noLoss (eq_neg_of_add_eq_zero_right zero)
  have usable : (isNaN (.num r : Exact K) || eq (nat 1 + .num r : Exact K) (nat 0)) = false := by
    simpa using nonzero
  rw [discount, usable, if_neg Bool.false_ne_true,
    bind_of_eq_ok (discountedFlows_eq nonzero 1 count flow), Exact.sumLeft_eq]
  simp only [Nat.add_comm 1]

end BusinessCase
