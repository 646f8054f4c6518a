/-
BusinessCase.Proofs.Scalar.Quotient — the double next to a quotient.

Rounding takes a quotient in units of a power of two, of which it has 53 bits
unless the least unit is reached, and puts the double together from the place of
the unit and the whole number of units. So the quotient alone tells whether the
double is still finite, and other than zero: it is infinite from half a unit
above the largest finite double on, and zero up to half the least double. Both
ties go to the even neighbour, which is the one outside.

  §1 Limits  — powers of two inside and outside the range, `IsPatternOf`.
  §2 Ties    — `le_roundDiv_even`.
  §3 Units   — `inUnits`, and `roundingUnit`, which rounding finds.
  §4 Nearest — `nearest_pattern`.
-/
import BusinessCase.Proofs.Scalar.Patterns

namespace BusinessCase

/-! ## §1 Limits -/

theorem two_pow_mul_zpow (k : ℕ) (q : ℤ) : (2 : ℝ) ^ k * 2 ^ q = 2 ^ (k + q) := by
  rw [zpow_add₀ (by norm_num : (2 : ℝ) ≠ 0), zpow_natCast]

theorem overflowLimit_le {e : ℤ} (large : 1024 ≤ e) : overflowLimit ≤ 2 ^ e :=
  calc overflowLimit ≤ 2 ^ 53 * 2 ^ (971 : ℤ) :=
        mul_le_mul_of_nonneg_right (by norm_num) (by positivity)
    _ = 2 ^ (1024 : ℤ) := two_pow_mul_zpow 53 971
    _ ≤ 2 ^ e := zpow_le_zpow_right₀ (by norm_num) large

theorem lt_overflowLimit {e : ℤ} (small : e ≤ 1023) : 2 ^ e < overflowLimit :=
  calc (2 : ℝ) ^ e ≤ 2 ^ (1023 : ℤ) := zpow_le_zpow_right₀ (by norm_num) small
    _ = 2 ^ 52 * 2 ^ (971 : ℤ) := (two_pow_mul_zpow 52 971).symm
    _ < overflowLimit := mul_lt_mul_of_pos_right (by norm_num) (by positivity)

theorem le_underflowLimit {e : ℤ} (small : e ≤ -1075) : 2 ^ e ≤ underflowLimit := by
  have half : (2 : ℝ) ^ (-1075 : ℤ) = 1 / 2 * 2 ^ (-1074 : ℤ) := by
    rw [one_div, ← zpow_neg_one, ← zpow_add₀ (by norm_num : (2 : ℝ) ≠ 0)]
    norm_num
  exact (zpow_le_zpow_right₀ (by norm_num) small).trans_eq half

theorem underflowLimit_lt {e : ℤ} (large : -1074 ≤ e) : underflowLimit < 2 ^ e :=
  calc underflowLimit < 1 * 2 ^ (-1074 : ℤ) :=
        mul_lt_mul_of_pos_right (by norm_num) (by positivity)
    _ = 2 ^ (-1074 : ℤ) := one_mul _
    _ ≤ 2 ^ e := zpow_le_zpow_right₀ (by norm_num) large

theorem one_lt_overflowLimit : 1 < overflowLimit := by
  simpa only [zpow_zero] using lt_overflowLimit (e := 0) (by decide)

theorem underflowLimit_lt_one : underflowLimit < 1 := by
  simpa only [zpow_zero] using underflowLimit_lt (e := 0) (by decide)

theorem underflowLimit_pos : 0 < underflowLimit := by
  unfold underflowLimit
  positivity

/-- The pattern of a rounded number: it is that of infinity, or of zero, just where the number is
outside the range of doubles. -/
structure IsPatternOf (t : ℝ) (bits : ℕ) : Prop where
  le : bits ≤ Decimal.infinityPattern
  infinite : bits = Decimal.infinityPattern ↔ overflowLimit ≤ t
  zero : bits = 0 ↔ t ≤ underflowLimit

theorem underflowLimit_lt_overflowLimit : underflowLimit < overflowLimit :=
  underflowLimit_lt_one.trans one_lt_overflowLimit

theorem isPatternOf_infinity {t : ℝ} (beyond : overflowLimit ≤ t) :
    IsPatternOf t Decimal.infinityPattern :=
  ⟨le_rfl, iff_of_true rfl beyond,
    iff_of_false (by decide) (underflowLimit_lt_overflowLimit.trans_le beyond).not_ge⟩

theorem isPatternOf_zero {t : ℝ} (small : t ≤ underflowLimit) : IsPatternOf t 0 :=
  ⟨by decide, iff_of_false (by decide) (small.trans_lt underflowLimit_lt_overflowLimit).not_ge,
    iff_of_true rfl small⟩

/-! ## §2 Ties -/

section Ties

variable (num : ℕ) {den : ℕ}

theorem roundDiv_le (den : ℕ) : Decimal.roundDiv num den ≤ num / den + 1 := by
  unfold Decimal.roundDiv
  dsimp only
  split_ifs <;> omega

/-- A half goes to the even neighbour. -/
theorem le_roundDiv_iff (positive : 0 < den) (k : ℕ) :
    k ≤ Decimal.roundDiv num den ↔
      2 * (k * den) < 2 * num + den ∨ 2 * (k * den) = 2 * num + den ∧ k % 2 = 0 := by
  have whole := Nat.div_add_mod num den
  have rest := Nat.mod_lt num positive
  unfold Decimal.roundDiv
  dsimp only
  rcases Nat.lt_trichotomy k (num / den + 1) with below | rfl | above
  · have le : k * den ≤ den * (num / den) := by
      rw [Nat.mul_comm]
      exact Nat.mul_le_mul_left _ (Nat.le_of_lt_succ below)
    split_ifs <;> omega
  · have product : (num / den + 1) * den = den * (num / den) + den := by ring
    rw [product]
    split_ifs <;> omega
  · have ge : den * (num / den) + 2 * den ≤ k * den := by
      have product : (num / den + 2) * den = den * (num / den) + 2 * den := by ring
      rw [← product]
      exact Nat.mul_le_mul_right _ above
    split_ifs <;> omega

/-- An even number is reached from half a unit below it on. -/
theorem le_roundDiv_even (positive : 0 < den) {k : ℕ} (even : k % 2 = 0) :
    k ≤ Decimal.roundDiv num den ↔ (k : ℝ) - 1 / 2 ≤ num / den := by
  have divisor : (0 : ℝ) < den := by exact_mod_cast positive
  have reached : 2 * (k * den) ≤ 2 * num + den ↔ (k : ℝ) - 1 / 2 ≤ num / den := by
    rw [le_div_iff₀ divisor, ← Nat.cast_le (α := ℝ)]
    push_cast
    constructor <;> intro h <;> linarith
  rw [le_roundDiv_iff num positive, ← reached]
  omega

theorem roundDiv_eq_zero_iff (positive : 0 < den) :
    Decimal.roundDiv num den = 0 ↔ (num : ℝ) / den ≤ 1 / 2 := by
  have divisor : (0 : ℝ) < den := by exact_mod_cast positive
  have small : 2 * num ≤ den ↔ (num : ℝ) / den ≤ 1 / 2 := by
    rw [div_le_iff₀ divisor, ← Nat.cast_le (α := ℝ)]
    push_cast
    constructor <;> intro h <;> linarith
  have one := le_roundDiv_iff num positive 1
  rw [← small]
  omega

end Ties

/-! ## §3 Units -/

variable {num den : ℕ}

theorem two_zpow_of_neg {q : ℤ} (negative : q < 0) : (2 : ℝ) ^ q = (2 ^ q.natAbs)⁻¹ := by
  have exponent : -(q.natAbs : ℤ) = q := by omega
  rw [← zpow_natCast, ← zpow_neg, exponent]

theorem two_zpow_of_nonneg {q : ℤ} (nonneg : ¬ q < 0) : (2 : ℝ) ^ q = 2 ^ q.natAbs := by
  have exponent : (q.natAbs : ℤ) = q := by omega
  rw [← zpow_natCast, exponent]

/-- The quotient `num / den` in units of `2 ^ q`. -/
def inUnits (num den : Nat) (q : Int) : Nat × Nat :=
  if q < 0 then (num * Nat.pow 2 q.natAbs, den) else (num, den * Nat.pow 2 q.natAbs)

theorem inUnits_pos (num : ℕ) (positive : 0 < den) (q : ℤ) : 0 < (inUnits num den q).2 := by
  unfold inUnits
  split
  · exact positive
  · exact Nat.mul_pos positive (Nat.two_pow_pos _)

theorem inUnits_div (num den : ℕ) (q : ℤ) :
    ((inUnits num den q).1 : ℝ) / (inUnits num den q).2 = num / den / 2 ^ q := by
  unfold inUnits
  split
  · next negative =>
    rw [two_zpow_of_neg negative, div_inv_eq_mul, div_mul_eq_mul_div]
    norm_num
  · next nonneg =>
    rw [two_zpow_of_nonneg nonneg, div_div]
    norm_num

/-- A quotient in units is at least a whole number where the quotient itself is. -/
theorem le_inUnits_iff (positive : 0 < den) (k : ℕ) (q : ℤ) :
    k ≤ (inUnits num den q).1 / (inUnits num den q).2 ↔ (k : ℝ) * 2 ^ q ≤ num / den := by
  have divisor : (0 : ℝ) < (inUnits num den q).2 := by exact_mod_cast inUnits_pos num positive q
  have power : (0 : ℝ) < 2 ^ q := by positivity
  rw [Nat.le_div_iff_mul_le (inUnits_pos num positive q), ← le_div_iff₀ power, ← inUnits_div,
    le_div_iff₀ divisor]
  exact_mod_cast Iff.rfl

/-- The leading bits bound a quotient. -/
theorem log2_div_bounds (nonzero : num ≠ 0) (positive : 0 < den) :
    (2 : ℝ) ^ ((num.log2 : ℤ) - den.log2 - 1) ≤ num / den ∧
      (num : ℝ) / den < 2 ^ ((num.log2 : ℤ) - den.log2 + 1) := by
  have two : (2 : ℝ) ≠ 0 := by norm_num
  have num_le : (2 : ℝ) ^ num.log2 ≤ num := by exact_mod_cast Nat.log2_self_le nonzero
  have num_lt : (num : ℝ) < 2 ^ (num.log2 + 1) := by exact_mod_cast Nat.lt_log2_self
  have den_le : (2 : ℝ) ^ den.log2 ≤ den := by exact_mod_cast Nat.log2_self_le positive.ne'
  have den_lt : (den : ℝ) < 2 ^ (den.log2 + 1) := by exact_mod_cast Nat.lt_log2_self
  have den_pos : (0 : ℝ) < den := by exact_mod_cast positive
  constructor
  · calc (2 : ℝ) ^ ((num.log2 : ℤ) - den.log2 - 1) = 2 ^ num.log2 / 2 ^ (den.log2 + 1) := by
          rw [sub_sub, zpow_sub₀ two]
          norm_cast
      _ ≤ num / den := div_le_div₀ (Nat.cast_nonneg _) num_le den_pos den_lt.le
  · calc (num : ℝ) / den < 2 ^ (num.log2 + 1) / 2 ^ den.log2 :=
          div_lt_div₀ num_lt den_le (by positivity) (by positivity)
      _ = 2 ^ ((num.log2 : ℤ) - den.log2 + 1) := by
          rw [sub_add_eq_add_sub, zpow_sub₀ two]
          norm_cast

/-- A unit in which a quotient has 53 bits or 54. -/
def wideUnit (num den : ℕ) : ℤ := (num.log2 : ℤ) - den.log2 - 53

/-- The unit in which a quotient has 53 bits. -/
def fullUnit (num den : ℕ) : ℤ :=
  if 2 * Decimal.hiddenBit ≤ (inUnits num den (wideUnit num den)).1 /
      (inUnits num den (wideUnit num den)).2 then wideUnit num den + 1
  else wideUnit num den

/-- The unit to which a quotient is rounded: that of its 53 bits, or else the least. -/
def roundingUnit (num den : ℕ) : ℤ :=
  if fullUnit num den < -1074 then -1074 else fullUnit num den

theorem fullUnit_bounds (nonzero : num ≠ 0) (positive : 0 < den) :
    2 ^ 52 * 2 ^ fullUnit num den ≤ (num : ℝ) / den ∧
      (num : ℝ) / den < 2 ^ 53 * 2 ^ fullUnit num den := by
  obtain ⟨least, most⟩ := log2_div_bounds nonzero positive
  have low : 2 ^ 52 * 2 ^ wideUnit num den ≤ (num : ℝ) / den := by
    refine le_of_eq_of_le ?_ least
    rw [two_pow_mul_zpow, wideUnit]
    congr 1
    push_cast
    omega
  have high : (num : ℝ) / den < 2 ^ 54 * 2 ^ wideUnit num den := by
    refine lt_of_lt_of_eq most ?_
    rw [two_pow_mul_zpow, wideUnit]
    congr 1
    push_cast
    omega
  have long_iff : 2 * Decimal.hiddenBit ≤ (inUnits num den (wideUnit num den)).1 /
      (inUnits num den (wideUnit num den)).2 ↔
        2 ^ 53 * 2 ^ wideUnit num den ≤ (num : ℝ) / den := by
    have bits : 2 * Decimal.hiddenBit = 2 ^ 53 := rfl
    rw [bits, le_inUnits_iff positive]
    norm_num
  unfold fullUnit
  split
  · next long =>
    have double : (2 : ℝ) ^ (wideUnit num den + 1) = 2 * 2 ^ wideUnit num den := by
      rw [zpow_add_one₀ (by norm_num : (2 : ℝ) ≠ 0), mul_comm]
    have reached := long_iff.mp long
    rw [double]
    constructor <;> linarith
  · next short => exact ⟨low, not_le.mp fun reached => short (long_iff.mpr reached)⟩

theorem roundingUnit_bounds (nonzero : num ≠ 0) (positive : 0 < den) :
    -1074 ≤ roundingUnit num den ∧ (num : ℝ) / den < 2 ^ 53 * 2 ^ roundingUnit num den ∧
      (roundingUnit num den = -1074 ∨ 2 ^ 52 * 2 ^ roundingUnit num den ≤ (num : ℝ) / den) := by
  obtain ⟨low, high⟩ := fullUnit_bounds nonzero positive
  unfold roundingUnit
  split
  · next below =>
    refine ⟨le_rfl, high.trans_le (mul_le_mul_of_nonneg_left ?_ (by positivity)), .inl rfl⟩
    exact zpow_le_zpow_right₀ (by norm_num) below.le
  · next within => exact ⟨not_lt.mp within, high, .inr low⟩

/-! ## §4 Nearest -/

/-- The pattern of a quotient in units: the place of the unit, and on it the whole number of units.
A number of units with more than 53 bits carries into the place. -/
def patternInUnits (q : ℤ) (parts : ℕ × ℕ) : ℕ :=
  (q + 1074).toNat * Decimal.hiddenBit + Decimal.roundDiv parts.1 parts.2

theorem nearest_eq (negative : Bool) (den : ℕ) (nonzero : num ≠ 0) :
    Decimal.nearest negative num den =
      if 972 < roundingUnit num den then Decimal.ofPattern negative Decimal.infinityPattern
      else Decimal.ofPattern negative
        (if Decimal.infinityPattern ≤
            patternInUnits (roundingUnit num den) (inUnits num den (roundingUnit num den))
          then Decimal.infinityPattern
          else patternInUnits (roundingUnit num den) (inUnits num den (roundingUnit num den))) := by
  unfold Decimal.nearest
  rw [if_neg nonzero]
  rfl

section Units

variable {parts : ℕ × ℕ} {q : ℤ} (positive : 0 < parts.2)

include positive

theorem infinity_le_patternInUnits_iff (most : q ≤ 972) (short : (parts.1 : ℝ) / parts.2 < 2 ^ 53)
    (full : q = -1074 ∨ 2 ^ 52 ≤ (parts.1 : ℝ) / parts.2) :
    Decimal.infinityPattern ≤ patternInUnits q parts ↔
      overflowLimit ≤ (parts.1 : ℝ) / parts.2 * 2 ^ q := by
  have infinity : Decimal.infinityPattern = 2047 * 2 ^ 52 := rfl
  have hidden : Decimal.hiddenBit = 2 ^ 52 := rfl
  have power : (0 : ℝ) < 2 ^ q := by positivity
  have quotient : parts.1 / parts.2 < 2 ^ 53 := by
    rw [Nat.div_lt_iff_lt_mul positive]
    exact_mod_cast (div_lt_iff₀ (by exact_mod_cast positive)).mp short
  have rounded := roundDiv_le parts.1 parts.2
  rw [patternInUnits, infinity, hidden]
  -- In the last unit below infinity's own, only carrying reaches its pattern.
  rcases (show q ≤ 970 ∨ q = 971 ∨ q = 972 by omega) with small | rfl | rfl
  · refine iff_of_false (by omega) (not_le.mpr ?_)
    calc (parts.1 : ℝ) / parts.2 * 2 ^ q < 2 ^ 53 * 2 ^ q := mul_lt_mul_of_pos_right short power
      _ = 2 ^ (53 + q) := two_pow_mul_zpow 53 q
      _ < overflowLimit := lt_overflowLimit (by omega)
  · have carried := le_roundDiv_even parts.1 positive (k := 2 ^ 53) (by decide)
    rw [Nat.cast_pow, Nat.cast_ofNat] at carried
    rw [overflowLimit, mul_le_mul_iff_left₀ power, ← carried]
    omega
  · have long := full.resolve_left (by decide)
    have started := (le_roundDiv_even parts.1 positive (k := 2 ^ 52) (by decide)).mpr
      (by rw [Nat.cast_pow, Nat.cast_ofNat]; linarith)
    refine iff_of_true (by omega) ?_
    calc overflowLimit ≤ 2 ^ (1024 : ℤ) := overflowLimit_le le_rfl
      _ = 2 ^ 52 * 2 ^ (972 : ℤ) := (two_pow_mul_zpow 52 972).symm
      _ ≤ parts.1 / parts.2 * 2 ^ (972 : ℤ) := mul_le_mul_of_nonneg_right long power.le

theorem patternInUnits_eq_zero_iff (least : -1074 ≤ q)
    (full : q = -1074 ∨ 2 ^ 52 ≤ (parts.1 : ℝ) / parts.2) :
    patternInUnits q parts = 0 ↔ (parts.1 : ℝ) / parts.2 * 2 ^ q ≤ underflowLimit := by
  have hidden : Decimal.hiddenBit = 2 ^ 52 := rfl
  have power : (0 : ℝ) < 2 ^ q := by positivity
  rw [patternInUnits, hidden]
  rcases least.eq_or_lt with rfl | above
  · rw [underflowLimit, mul_le_mul_iff_left₀ power, ← roundDiv_eq_zero_iff parts.1 positive]
    omega
  · have long := full.resolve_left above.ne'
    refine iff_of_false (by omega) (not_le.mpr ?_)
    calc underflowLimit < 2 ^ (52 + q) := underflowLimit_lt (by omega)
      _ = 2 ^ 52 * 2 ^ q := (two_pow_mul_zpow 52 q).symm
      _ ≤ parts.1 / parts.2 * 2 ^ q := mul_le_mul_of_nonneg_right long power.le

end Units

/-- **The double next to a quotient** is infinite, or zero, just where the quotient is outside the
range. -/
theorem nearest_pattern (negative : Bool) (num : ℕ) (positive : 0 < den) :
    ∃ bits, Decimal.nearest negative num den = Decimal.ofPattern negative bits ∧
      IsPatternOf (num / den) bits := by
  by_cases nonzero : num = 0
  · refine ⟨0, by rw [nonzero]; rfl, isPatternOf_zero ?_⟩
    rw [nonzero, Nat.cast_zero, zero_div]
    exact underflowLimit_pos.le
  have nearest := nearest_eq negative den nonzero
  obtain ⟨least, short, full⟩ := roundingUnit_bounds nonzero positive
  generalize roundingUnit num den = q at nearest least short full
  by_cases large : 972 < q
  · refine ⟨_, nearest.trans (if_pos large), isPatternOf_infinity ?_⟩
    calc overflowLimit ≤ 2 ^ (52 + q) := overflowLimit_le (by omega)
      _ = 2 ^ 52 * 2 ^ q := (two_pow_mul_zpow 52 q).symm
      _ ≤ num / den := full.resolve_left (by omega)
  · have power : (0 : ℝ) < 2 ^ q := by positivity
    have divisor := inUnits_pos num positive q
    have scaled : (num : ℝ) / den = (inUnits num den q).1 / (inUnits num den q).2 * 2 ^ q := by
      rw [inUnits_div, div_mul_cancel₀ _ power.ne']
    rw [scaled] at short full
    rw [mul_lt_mul_iff_left₀ power] at short
    rw [mul_le_mul_iff_left₀ power] at full
    have infinite := infinity_le_patternInUnits_iff divisor (not_lt.mp large) short full
    have zero := patternInUnits_eq_zero_iff divisor least full
    rw [← scaled] at infinite zero
    refine ⟨_, nearest.trans (if_neg large), ?_⟩
    split
    · next beyond => exact isPatternOf_infinity (infinite.mp beyond)
    · next within =>
      exact ⟨(not_le.mp within).le, iff_of_false (not_le.mp within).ne fun beyond =>
        within (infinite.mpr beyond), zero⟩

end BusinessCase
