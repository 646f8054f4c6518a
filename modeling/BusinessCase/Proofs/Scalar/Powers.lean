/-
BusinessCase.Proofs.Scalar.Powers — whole powers of doubles.

A whole power is worked out exactly from the fields of a double, and rounded
once. So the exact power alone tells whether the rounded one is still a finite
double, and other than zero.

  §1 Exact  — the absolute value as a quotient, and its leading bit.
  §2 Powers — `powNat_pattern`, `powNat_range` and `isFinite_powNat`.
-/
import BusinessCase.Proofs.Scalar.Quotient

namespace BusinessCase

/-! ## §1 Exact -/

/-- The quotient that a decoded double stands for. -/
theorem ratio_div (d : Decimal.Dyadic) :
    0 < d.ratio.2 ∧ (d.ratio.1 : ℝ) / d.ratio.2 = d.significand * 2 ^ d.exponent := by
  unfold Decimal.Dyadic.ratio
  split
  · next negative =>
    refine ⟨Nat.two_pow_pos _, ?_⟩
    rw [two_zpow_of_neg negative, ← div_eq_mul_inv]
    norm_num
  · next nonneg =>
    refine ⟨Nat.one_pos, ?_⟩
    rw [two_zpow_of_nonneg nonneg, Nat.cast_one, div_one]
    norm_num

/-- The leading bit bounds a number. -/
theorem log2_add_bounds {m : ℕ} (nonzero : m ≠ 0) (e : ℤ) :
    (2 : ℝ) ^ ((m.log2 : ℤ) + e) ≤ m * 2 ^ e ∧ (m : ℝ) * 2 ^ e < 2 ^ ((m.log2 : ℤ) + 1 + e) := by
  have two : (2 : ℝ) ≠ 0 := by norm_num
  have power : (0 : ℝ) < 2 ^ e := by positivity
  rw [zpow_add₀ two, zpow_add₀ two]
  constructor
  · refine mul_le_mul_of_nonneg_right ?_ power.le
    exact_mod_cast Nat.log2_self_le nonzero
  · refine mul_lt_mul_of_pos_right ?_ power
    exact_mod_cast Nat.lt_log2_self

/-! ## §2 Powers -/

variable {x : Float}

/-- **A whole power** is infinite, or zero, just where the exact power is outside the range. -/
theorem powNat_pattern (finite : x.isFinite = true) (n : ℕ) :
    ∃ negative bits, Decimal.powNat x n = Decimal.ofPattern negative bits ∧
      IsPatternOf (|value x| ^ n) bits := by
  obtain ⟨d, decoded, same⟩ := decode_value finite
  rw [same]
  unfold Decimal.powNat
  split
  · next none =>
    refine ⟨false, 0x3FF0000000000000, rfl, by decide, iff_of_false (by decide) ?_,
      iff_of_false (by decide) ?_⟩
    · rw [none, pow_zero]
      exact one_lt_overflowLimit.not_ge
    · rw [none, pow_zero]
      exact underflowLimit_lt_one.not_ge
  next some_factor =>
  rw [decoded]
  dsimp only
  split
  · next zero =>
    refine ⟨_, _, rfl, isPatternOf_zero ?_⟩
    rw [zero, Nat.cast_zero, zero_mul, zero_pow some_factor]
    exact underflowLimit_pos.le
  next nonzero =>
  obtain ⟨low, high⟩ := log2_add_bounds nonzero d.exponent
  split
  · next large =>
    refine ⟨_, _, rfl, isPatternOf_infinity ?_⟩
    calc overflowLimit ≤ 2 ^ (((d.significand.log2 : ℤ) + d.exponent) * n) :=
          overflowLimit_le (by omega)
      _ = (2 ^ ((d.significand.log2 : ℤ) + d.exponent)) ^ n := by rw [zpow_mul, zpow_natCast]
      _ ≤ (d.significand * 2 ^ d.exponent) ^ n := pow_le_pow_left₀ (by positivity) low n
  split
  · next small =>
    refine ⟨_, _, rfl, isPatternOf_zero ?_⟩
    calc (d.significand * 2 ^ d.exponent : ℝ) ^ n
        ≤ (2 ^ ((d.significand.log2 : ℤ) + 1 + d.exponent)) ^ n :=
          pow_le_pow_left₀ (by positivity) high.le n
      _ = 2 ^ (((d.significand.log2 : ℤ) + 1 + d.exponent) * n) := by rw [zpow_mul, zpow_natCast]
      _ ≤ underflowLimit := le_underflowLimit (by rw [add_right_comm]; omega)
  obtain ⟨positive, ratio⟩ := ratio_div d
  obtain ⟨bits, nearest, pattern⟩ := nearest_pattern (d.negative && n % 2 == 1) (d.ratio.1 ^ n)
    (Nat.pow_pos (n := n) positive)
  refine ⟨_, bits, nearest, ?_⟩
  rw [← ratio, div_pow]
  push_cast at pattern
  exact pattern

/-- **A whole power is finite as long as it stays well within the doubles.** -/
theorem isFinite_powNat {k n : ℕ} (finite : x.isFinite = true) (bound : |value x| ≤ 2 ^ k)
    (few : k * n ≤ 900) : (Decimal.powNat x n).isFinite = true := by
  obtain ⟨negative, bits, power, pattern⟩ := powNat_pattern finite n
  have within : |value x| ^ n < overflowLimit := by
    calc |value x| ^ n ≤ (2 ^ k) ^ n := pow_le_pow_left₀ (abs_nonneg _) bound n
      _ = 2 ^ ((k * n : ℕ) : ℤ) := by rw [← pow_mul, zpow_natCast]
      _ < overflowLimit := lt_overflowLimit (by omega)
  have other : bits ≠ Decimal.infinityPattern := fun infinite =>
    (pattern.infinite.mp infinite).not_gt within
  rw [power]
  exact (finite_ofPattern negative (lt_of_le_of_ne pattern.le other)).1

end BusinessCase
