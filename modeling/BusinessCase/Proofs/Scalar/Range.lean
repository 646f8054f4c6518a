/-
BusinessCase.Proofs.Scalar.Range — sums that do not run over.

A term is pushed through the partial sums by pairs, and what a pair is replaced
by is in size at most a small part above the pair. So the partial sums of `n`
terms together stay close to the sizes of the terms, whose sum bounds every
number on the way: terms well inside of the range of doubles do not run over,
whatever their order and signs are.

  §1 Pairs    — `twoSum_within`.
  §2 Partials — `mass`, `push_within`.
  §3 Sums     — `foldlM_within`, `not_runsOver_of_moderate`.
-/
import BusinessCase.Proofs.Scalar.Infinite
import BusinessCase.Proofs.Scalar.Rounding

namespace BusinessCase.ExactSum

variable {x y : Float} {xs partials : List Float} {s : State}

/-! ## §1 Pairs -/

/-- How much larger a pair can become, in three roundings. -/
def growth : ℚ := (1 + unit) ^ 3

theorem unit_le : unit ≤ 1 / 4 := by
  norm_num [unit]

theorem one_le_growth : 1 ≤ growth :=
  one_le_pow₀ (by linarith [unit_nonneg])

/-- What grows in part is at most what grows as a whole. -/
theorem mul_grown_le {c g a b : ℚ} (hc : 0 ≤ c) (hg : 1 ≤ g) (hb : 0 ≤ b) :
    c * (g * a + b) ≤ c * g * (a + b) := by
  have part : b ≤ g * b := le_mul_of_one_le_left hb hg
  calc c * (g * a + b) ≤ c * (g * a + g * b) := mul_le_mul_of_nonneg_left (by linarith) hc
    _ = c * g * (a + b) := by ring

theorem abs_le_of_near {a b bound : ℚ} (near : |a - b| ≤ unit * |b|) (le : |b| ≤ bound) :
    |a| ≤ (1 + unit) * bound := by
  have part : unit * |b| ≤ unit * bound := mul_le_mul_of_nonneg_left le unit_nonneg
  calc |a| = |(a - b) + b| := by rw [sub_add_cancel]
    _ ≤ |a - b| + |b| := abs_add_le _ _
    _ ≤ unit * bound + bound := add_le_add (near.trans part) le
    _ = (1 + unit) * bound := by ring

theorem two_zpow_succ (n : Int) : (2 : ℚ) ^ (n + 1) = 2 * 2 ^ n := by
  rw [zpow_add_one₀ (by norm_num : (2 : ℚ) ≠ 0), mul_comm]

/-- What a pair is replaced by, in either order. -/
theorem pair_within (hx : x.isFinite = true) (hy : y.isFinite = true)
    (small : |amount x| + |amount y| ≤ 2 ^ (1021 : Int)) :
    (x + y).isFinite = true ∧ (y - (x + y - x)).isFinite = true ∧
      |amount (x + y)| + |amount (y - (x + y - x))| ≤ growth * (|amount x| + |amount y|) := by
  have top : (2 : ℚ) ^ (1022 : Int) = 2 * 2 ^ (1021 : Int) := two_zpow_succ 1021
  generalize total : |amount x| + |amount y| = S at small ⊢
  have nonneg : 0 ≤ S := by
    rw [← total]
    positivity
  have hS : unit * S ≤ 1 / 4 * S := mul_le_mul_of_nonneg_right unit_le nonneg
  have inside {b : ℚ} (le : b ≤ 2 * S) : b ≤ 2 ^ (1022 : Int) := by
    rw [top]
    exact le.trans (mul_le_mul_of_nonneg_left small (by norm_num))
  have exact_sum : |amount x + amount y| ≤ S := total ▸ abs_add_le _ _
  obtain ⟨high, nearHigh⟩ := add_near hx hy (inside (by linarith))
  -- Taking the first number off leaves the second, up to what rounding has cut off.
  have cut : |amount (x + y) - (amount x + amount y)| ≤ unit * S :=
    nearHigh.trans (mul_le_mul_of_nonneg_left exact_sum unit_nonneg)
  have left : |amount (x + y) - amount x| ≤ (1 + unit) * S := by
    calc |amount (x + y) - amount x|
        = |(amount (x + y) - (amount x + amount y)) + amount y| := by ring_nf
      _ ≤ unit * S + |amount y| := (abs_add_le _ _).trans (by linarith)
      _ ≤ (1 + unit) * S := by linarith [abs_nonneg (amount x)]
  obtain ⟨rest, nearRest⟩ := sub_near high hx (inside (by linarith))
  have cutAgain : |amount (x + y - x) - (amount (x + y) - amount x)| ≤ unit * ((1 + unit) * S) :=
    nearRest.trans (mul_le_mul_of_nonneg_left left unit_nonneg)
  have lost : |amount y - amount (x + y - x)| ≤ unit * S + unit * ((1 + unit) * S) := by
    calc |amount y - amount (x + y - x)|
        = |(amount (x + y) - (amount x + amount y)) +
            (amount (x + y - x) - (amount (x + y) - amount x))| := by
          rw [← abs_neg]
          ring_nf
      _ ≤ unit * S + unit * ((1 + unit) * S) := (abs_add_le _ _).trans (add_le_add cut cutAgain)
  have twice : unit * ((1 + unit) * S) ≤ S := by
    calc unit * ((1 + unit) * S) = (1 + unit) * (unit * S) := by ring
      _ ≤ (1 + unit) * (1 / 4 * S) := mul_le_mul_of_nonneg_left hS (by linarith [unit_nonneg])
      _ ≤ S := by linarith
  obtain ⟨low, nearLow⟩ := sub_near hy rest (inside (by linarith))
  refine ⟨high, low, ?_⟩
  calc |amount (x + y)| + |amount (y - (x + y - x))|
      ≤ (1 + unit) * S + (1 + unit) * (unit * S + unit * ((1 + unit) * S)) :=
        add_le_add (abs_le_of_near nearHigh exact_sum) (abs_le_of_near nearLow lost)
    _ = growth * S := by
      unfold growth
      ring

/-- **What a pair is replaced by is finite, and hardly larger.** -/
theorem twoSum_within (hx : x.isFinite = true) (hy : y.isFinite = true)
    (small : |amount x| + |amount y| ≤ 2 ^ (1021 : Int)) :
    (twoSum x y).1.isFinite = true ∧ (twoSum x y).2.isFinite = true ∧
      |amount (twoSum x y).1| + |amount (twoSum x y).2| ≤ growth * (|amount x| + |amount y|) := by
  by_cases smaller : x.abs < y.abs
  · simp only [twoSum, smaller, if_true]
    rw [add_comm |amount x|] at small ⊢
    exact pair_within hy hx small
  · simp only [twoSum, smaller, if_false]
    exact pair_within hx hy small

/-! ## §2 Partials -/

/-- The sizes of all finite numbers of a list, together. -/
def mass : List Float → ℚ
  | [] => 0
  | x :: rest => |amount x| + mass rest

theorem mass_nonneg (xs : List Float) : 0 ≤ mass xs := by
  induction xs with
  | nil => exact le_rfl
  | cons x rest ih => exact add_nonneg (abs_nonneg _) ih

theorem mass_append (xs ys : List Float) : mass (xs ++ ys) = mass xs + mass ys := by
  induction xs with
  | nil => exact (zero_add _).symm
  | cons x rest ih => rw [List.cons_append, mass, mass, ih, add_assoc]

/-- The numbers are finite. -/
def AllFinite (xs : List Float) : Prop := ∀ x ∈ xs, x.isFinite = true

/-- **Pushing a term through partial sums makes a pair of each of them.** -/
theorem push_within (hx : x.isFinite = true) (finite : AllFinite partials)
    (small : growth ^ partials.length * (|amount x| + mass partials) ≤ 2 ^ (1021 : Int)) :
    (push x partials).2.isFinite = true ∧ AllFinite (push x partials).1 ∧
      (push x partials).1.length ≤ partials.length ∧
      mass (push x partials).1 + |amount (push x partials).2| ≤
        growth ^ partials.length * (|amount x| + mass partials) := by
  induction partials generalizing x with
  | nil =>
    refine ⟨hx, by simp [push, AllFinite], le_rfl, ?_⟩
    simp [push, mass]
  | cons y rest ih =>
    obtain ⟨hy, others⟩ := List.forall_mem_cons.mp finite
    have power : 1 ≤ growth ^ rest.length := one_le_pow₀ one_le_growth
    have restNonneg := mass_nonneg rest
    have pairNonneg : 0 ≤ |amount x| + |amount y| := by positivity
    have nonneg : 0 ≤ growth * (|amount x| + |amount y|) + mass rest := by
      have := mul_nonneg (zero_le_one.trans one_le_growth) pairNonneg
      linarith
    -- What the pair and the rest come to is no more than the bound for all.
    have whole : growth ^ rest.length * (growth * (|amount x| + |amount y|) + mass rest) ≤
        growth ^ (y :: rest).length * (|amount x| + mass (y :: rest)) := by
      rw [mass, List.length_cons, pow_succ, ← add_assoc]
      exact mul_grown_le (zero_le_one.trans power) one_le_growth restNonneg
    have pairSmall : |amount x| + |amount y| ≤ 2 ^ (1021 : Int) := by
      have first : |amount x| + |amount y| ≤ growth * (|amount x| + |amount y|) :=
        le_mul_of_one_le_left pairNonneg one_le_growth
      have all := le_mul_of_one_le_left nonneg power
      linarith
    obtain ⟨high, low, sizes⟩ := twoSum_within hx hy pairSmall
    have lowNonneg := abs_nonneg (amount (twoSum x y).2)
    have next : growth ^ rest.length * (|amount (twoSum x y).1| + mass rest) +
        |amount (twoSum x y).2| ≤
          growth ^ (y :: rest).length * (|amount x| + mass (y :: rest)) := by
      have apart : |amount (twoSum x y).2| ≤ growth ^ rest.length * |amount (twoSum x y).2| :=
        le_mul_of_one_le_left lowNonneg power
      have together : growth ^ rest.length *
          (|amount (twoSum x y).1| + |amount (twoSum x y).2| + mass rest) ≤
            growth ^ rest.length * (growth * (|amount x| + |amount y|) + mass rest) :=
        mul_le_mul_of_nonneg_left (by linarith) (by linarith)
      linarith
    obtain ⟨last, kept, length, bound⟩ := ih high others (by linarith)
    simp only [push]
    refine ⟨last, ?_⟩
    split
    · refine ⟨List.forall_mem_cons.mpr ⟨low, kept⟩, Nat.succ_le_succ length, ?_⟩
      rw [mass]
      linarith
    · exact ⟨kept, length.trans (Nat.le_succ _), by linarith⟩

/-! ## §3 Sums -/

/-- A term whose partial sums stay small is added. -/
theorem add_within {n : Nat} (finite : AllFinite s.partials) (length : s.partials.length ≤ n)
    (small : growth ^ n * (|amount x| + mass s.partials) ≤ 2 ^ (1021 : Int)) :
    ∃ t, s.add x = .ok t ∧ AllFinite t.partials ∧ t.partials.length ≤ s.partials.length + 1 ∧
      mass t.partials ≤ growth ^ n * (|amount x| + mass s.partials) := by
  have nonneg : 0 ≤ |amount x| + mass s.partials := add_nonneg (abs_nonneg _) (mass_nonneg _)
  cases hx : x.isFinite with
  | false =>
    refine ⟨_, add_of_not_isFinite hx s, by simp [AllFinite], Nat.zero_le _, ?_⟩
    exact mul_nonneg (pow_nonneg (zero_le_one.trans one_le_growth) n) nonneg
  | true =>
    have fewer : growth ^ s.partials.length * (|amount x| + mass s.partials) ≤
        growth ^ n * (|amount x| + mass s.partials) :=
      mul_le_mul_of_nonneg_right (pow_le_pow_right₀ one_le_growth length) nonneg
    obtain ⟨last, kept, shorter, bound⟩ := push_within hx finite (fewer.trans small)
    have lastNonneg := abs_nonneg (amount (push x s.partials).2)
    unfold State.add
    dsimp only
    rw [last]
    split
    · exact ⟨_, rfl, kept, by simp; omega, by simp; linarith⟩
    · refine ⟨_, rfl, List.forall_mem_append.mpr ⟨kept, by simpa using last⟩, by simp; omega, ?_⟩
      simp only [mass_append, mass, add_zero]
      linarith

/-- **Terms that stay small are summed**, from any state. -/
theorem foldlM_within {n : Nat} (finite : AllFinite s.partials)
    (length : s.partials.length + xs.length ≤ n)
    (small : growth ^ (n * xs.length) * (mass s.partials + mass xs) ≤ 2 ^ (1021 : Int)) :
    ∃ t, xs.foldlM State.add s = .ok t := by
  induction xs generalizing s with
  | nil => exact ⟨s, rfl⟩
  | cons x rest ih =>
    rw [List.length_cons] at length
    have later : 1 ≤ growth ^ (n * rest.length) := one_le_pow₀ one_le_growth
    have now : 1 ≤ growth ^ n := one_le_pow₀ one_le_growth
    have restNonneg := mass_nonneg rest
    have nonneg : 0 ≤ |amount x| + mass s.partials := add_nonneg (abs_nonneg _) (mass_nonneg _)
    have whole : growth ^ (n * rest.length) *
        (growth ^ n * (|amount x| + mass s.partials) + mass rest) ≤ 2 ^ (1021 : Int) := by
      have grown := mul_grown_le (a := |amount x| + mass s.partials) (zero_le_one.trans later) now
        restNonneg
      refine grown.trans (le_trans (le_of_eq ?_) small)
      rw [mass, List.length_cons, Nat.mul_succ, pow_add]
      ring
    have first : growth ^ n * (|amount x| + mass s.partials) ≤ 2 ^ (1021 : Int) := by
      have grown := mul_nonneg (zero_le_one.trans now) nonneg
      have all : growth ^ n * (|amount x| + mass s.partials) + mass rest ≤ _ :=
        le_mul_of_one_le_left (by linarith) later
      linarith
    obtain ⟨t, added, kept, longer, bound⟩ := add_within finite (by omega) first
    rw [List.foldlM_cons, added]
    refine ih kept (by omega) (le_trans ?_ whole)
    exact mul_le_mul_of_nonneg_left (by linarith) (by linarith)

/-- Over `2 ^ 24` terms, what is kept grows to twice its size at most. -/
theorem growth_pow_le {n : Nat} (few : n ≤ 2 ^ 24) : growth ^ (n * n) ≤ 2 := by
  have room : (3 * (n * n) : ℕ) * unit ≤ 1 / 2 := by
    have square : n * n ≤ 2 ^ 48 := by
      calc n * n ≤ 2 ^ 24 * 2 ^ 24 := Nat.mul_le_mul few few
        _ = 2 ^ 48 := by norm_num
    have cast : ((3 * (n * n) : ℕ) : ℚ) ≤ 3 * 2 ^ 48 := by
      exact_mod_cast Nat.mul_le_mul_left 3 square
    calc ((3 * (n * n) : ℕ) : ℚ) * unit ≤ 3 * 2 ^ 48 * unit :=
          mul_le_mul_of_nonneg_right cast unit_nonneg
      _ ≤ 1 / 2 := by norm_num [unit]
  have half : 1 / 2 ≤ (1 - unit) ^ (3 * (n * n)) := by
    have bernoulli := one_add_mul_le_pow (by linarith [unit_le] : -2 ≤ -unit) (3 * (n * n))
    rw [← sub_eq_add_neg] at bernoulli
    linarith
  have product : growth ^ (n * n) * (1 - unit) ^ (3 * (n * n)) ≤ 1 := by
    rw [growth, ← pow_mul, ← mul_pow]
    exact pow_le_one₀ (by nlinarith [unit_le, unit_nonneg]) (by nlinarith [unit_nonneg])
  have nonneg : 0 ≤ growth ^ (n * n) := pow_nonneg (zero_le_one.trans one_le_growth) _
  have part := mul_le_mul_of_nonneg_left half nonneg
  linarith

/-- At most `2 ^ 24` terms, which are together in size at most a sixteenth of the range. -/
def Moderate (xs : List Float) : Prop := xs.length ≤ 2 ^ 24 ∧ mass xs ≤ 2 ^ (1020 : Int)

/-- **Moderate terms do not run over**, whatever their order and signs are. -/
theorem not_runsOver_of_moderate (moderate : Moderate xs) : ¬ RunsOver xs := by
  intro runs
  obtain ⟨few, small⟩ := moderate
  have top : (2 : ℚ) ^ (1021 : Int) = 2 * 2 ^ (1020 : Int) := two_zpow_succ 1020
  have bound : growth ^ (xs.length * xs.length) * (mass [] + mass xs) ≤ 2 ^ (1021 : Int) := by
    rw [top, mass, zero_add]
    exact mul_le_mul (growth_pow_le few) small (mass_nonneg xs) (by norm_num)
  obtain ⟨t, summed⟩ := foldlM_within (s := {}) (by simp [AllFinite]) (by simp) bound
  rw [RunsOver, summed] at runs
  cases runs

end BusinessCase.ExactSum
