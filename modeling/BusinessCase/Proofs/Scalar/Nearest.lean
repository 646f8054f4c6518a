/-
BusinessCase.Proofs.Scalar.Nearest — doubles lie next to what they stand for.

What an operation would give exactly is cut to 53 bits, and what was cut off is
told by two more bits. Rounding goes to the nearer of the two neighbours that
are left, and so no double at all lies nearer to the exact result. That alone
tells what bounds an operation keeps: a result that lies between two doubles is
not rounded past either of them.

  §1 Grid     — `OnGrid`, the numbers that doubles stand for, however large.
  §2 Cuts     — `Cuts`, a significand with the two bits that tell its rest.
  §3 Rounding — `roundWithAccuracy_nearest`, `round_nearest`.
  §4 Doubles  — `value` and `RoundsTo`, with the bounds that rounding keeps.
-/
import BusinessCase.Proofs.Scalar.Rounding

namespace BusinessCase

open Float.Model Float.Model.UnpackedFloat

/-! ## §1 Grid -/

/-- A whole number of at most 53 bits times a power of two that is not too small. -/
def OnGrid (r : ℝ) : Prop := ∃ n e : ℤ, r = n * 2 ^ e ∧ |n| ≤ 2 ^ 53 ∧ -1074 ≤ e

theorem onGrid_neg {r : ℝ} (grid : OnGrid r) : OnGrid (-r) := by
  obtain ⟨n, e, rfl, small, least⟩ := grid
  exact ⟨-n, e, by push_cast; ring, by rwa [abs_neg], least⟩

theorem onGrid_intCast {n : ℤ} (small : |n| ≤ 2 ^ 53) : OnGrid n :=
  ⟨n, 0, by rw [zpow_zero, mul_one], small, by decide⟩

theorem onGrid_zero : OnGrid 0 := by
  simpa only [Int.cast_zero] using onGrid_intCast (n := 0) (by decide)

/-- A power of two that is not below one only makes a number larger. -/
theorem onGrid_two_pow_mul {r : ℝ} (k : ℕ) (grid : OnGrid r) : OnGrid (2 ^ k * r) := by
  obtain ⟨n, e, rfl, small, least⟩ := grid
  refine ⟨n, e + k, ?_, small, by omega⟩
  rw [zpow_add₀ (by norm_num : (2 : ℝ) ≠ 0), zpow_natCast]
  ring

theorem onGrid_two_zpow {e : ℤ} (least : -1074 ≤ e) : OnGrid (2 ^ e) :=
  ⟨1, e, by rw [Int.cast_one, one_mul], by decide, least⟩

/-- A larger power of two makes a whole number of a smaller one. -/
theorem exists_int_of_le {n e e' : ℤ} (le : e' ≤ e) :
    ∃ z : ℤ, (n : ℝ) * 2 ^ e = z * 2 ^ e' := by
  obtain ⟨k, rfl⟩ : ∃ k : ℕ, e = e' + k := ⟨(e - e').toNat, by omega⟩
  refine ⟨n * 2 ^ k, ?_⟩
  rw [zpow_add₀ (by norm_num : (2 : ℝ) ≠ 0), zpow_natCast]
  push_cast
  ring

/-- Two numbers on the grid are at least its least unit apart. -/
theorem onGrid_apart {r s : ℝ} (hr : OnGrid r) (hs : OnGrid s) (lt : r < s) :
    2 ^ (-1074 : ℤ) ≤ s - r := by
  obtain ⟨n, e, rfl, -, least⟩ := hr
  obtain ⟨m, f, rfl, -, least'⟩ := hs
  obtain ⟨z, first⟩ := exists_int_of_le (n := n) least
  obtain ⟨w, second⟩ := exists_int_of_le (n := m) least'
  have power : (0 : ℝ) < 2 ^ (-1074 : ℤ) := by positivity
  rw [first, second] at lt ⊢
  have less : z < w := by exact_mod_cast lt_of_mul_lt_mul_right lt power.le
  have step : (1 : ℝ) ≤ w - z := by
    have whole : 1 ≤ w - z := by omega
    exact_mod_cast whole
  rw [← sub_mul]
  exact le_mul_of_one_le_left power.le step

/-- Above minus one, the grid goes on half a unit of one further. -/
theorem onGrid_gap {r : ℝ} (grid : OnGrid r) (lt : -1 < r) : -1 + 2 ^ (-53 : ℤ) ≤ r := by
  obtain ⟨n, e, rfl, small, -⟩ := grid
  have unit : (2 : ℝ) ^ (53 : ℕ) * 2 ^ (-53 : ℤ) = 1 := by norm_num
  by_cases le : -53 ≤ e
  · obtain ⟨z, same⟩ := exists_int_of_le (n := n) le
    rw [same] at lt ⊢
    have above : -(2 : ℝ) ^ (53 : ℕ) < z := by
      by_contra below
      have product := mul_le_mul_of_nonneg_right (not_lt.mp below)
        (by positivity : (0 : ℝ) ≤ 2 ^ (-53 : ℤ))
      linarith
    have next : (-2 ^ 53 + 1 : ℤ) ≤ z := by
      have above' : (-2 ^ 53 : ℤ) < z := by exact_mod_cast above
      omega
    have next' : -(2 : ℝ) ^ (53 : ℕ) + 1 ≤ z := by exact_mod_cast next
    have product := mul_le_mul_of_nonneg_right next' (by positivity : (0 : ℝ) ≤ 2 ^ (-53 : ℤ))
    linarith
  · have few : -(2 : ℝ) ^ (53 : ℕ) ≤ n := by exact_mod_cast (abs_le.mp small).1
    have power : (2 : ℝ) ^ e ≤ 2 ^ (-54 : ℤ) := zpow_le_zpow_right₀ (by norm_num) (by omega)
    calc -1 + (2 : ℝ) ^ (-53 : ℤ) ≤ -(2 : ℝ) ^ (53 : ℕ) * 2 ^ (-54 : ℤ) := by norm_num
      _ ≤ -(2 : ℝ) ^ (53 : ℕ) * 2 ^ e := mul_le_mul_of_nonpos_left power (by norm_num)
      _ ≤ n * 2 ^ e := mul_le_mul_of_nonneg_right few (by positivity)

/-! ## §2 Cuts -/

/-- The number is cut to the significand, and the two bits tell the rest: whether it is half a unit
or more, and whether there is anything besides. -/
def Cuts (t : ℝ) : ExtendedMantissa → Prop
  | ⟨m, false, false⟩ => t = m
  | ⟨m, false, true⟩ => m < t ∧ t < m + 1 / 2
  | ⟨m, true, false⟩ => t = m + 1 / 2
  | ⟨m, true, true⟩ => m + 1 / 2 < t ∧ t < m + 1

variable {t : ℝ} {em : ExtendedMantissa}

/-- Half of a number is cut to half of the significand. -/
theorem cuts_half (cuts : Cuts t em) : Cuts (t / 2) em.shiftRightOne := by
  obtain ⟨m, half, rest⟩ := em
  obtain ⟨k, rfl | rfl⟩ : ∃ k, m = 2 * k ∨ m = 2 * k + 1 := ⟨m / 2, by omega⟩
  · have shifted : ExtendedMantissa.shiftRightOne ⟨2 * k, half, rest⟩ =
        ⟨k, false, half || rest⟩ := by
      simp [ExtendedMantissa.shiftRightOne]
    rw [shifted]
    cases half <;> cases rest <;> simp only [Cuts, Bool.or_true, Bool.or_false] at cuts ⊢ <;>
      push_cast at cuts
    · linarith
    · constructor <;> linarith
    · constructor <;> linarith
    · constructor <;> linarith
  · have shifted : ExtendedMantissa.shiftRightOne ⟨2 * k + 1, half, rest⟩ =
        ⟨k, true, half || rest⟩ := by
      simp [ExtendedMantissa.shiftRightOne, Nat.add_mod]
      omega
    rw [shifted]
    cases half <;> cases rest <;> simp only [Cuts, Bool.or_true, Bool.or_false] at cuts ⊢ <;>
      push_cast at cuts
    · linarith
    · constructor <;> linarith
    · constructor <;> linarith
    · constructor <;> linarith

theorem cuts_shift (cuts : Cuts t em) (k : ℕ) : Cuts (t / 2 ^ k) (em >>> k) := by
  induction k with
  | zero => simpa [HShiftRight.hShiftRight, Nat.repeat] using cuts
  | succ k ih =>
    have halved : em >>> (k + 1) = (em >>> k).shiftRightOne := rfl
    rw [halved, pow_succ, ← div_div]
    exact cuts_half ih

theorem cuts_bounds (cuts : Cuts t em) : em.mantissa ≤ t ∧ t < em.mantissa + 1 := by
  obtain ⟨m, half, rest⟩ := em
  cases half <;> cases rest <;> simp only [Cuts] at cuts <;> constructor <;> dsimp only <;>
    linarith

/-- Rounding goes half a unit at most. -/
theorem cuts_rounded (cuts : Cuts t em) : |(em.roundedMantissa : ℝ) - t| ≤ 1 / 2 := by
  obtain ⟨m, half, rest⟩ := em
  cases half <;> cases rest <;>
    simp only [Cuts, ExtendedMantissa.roundedMantissa, ExtendedMantissa.accuracy,
      Accuracy.roundToNearestEven] at cuts ⊢
  · rw [cuts, sub_self, abs_zero]
    norm_num
  · rw [abs_le]
    constructor <;> linarith
  · have bit : ((m % 2 : ℕ) : ℝ) = 0 ∨ ((m % 2 : ℕ) : ℝ) = 1 := by
      rcases Nat.mod_two_eq_zero_or_one m with even | odd
      · exact .inl (by rw [even, Nat.cast_zero])
      · exact .inr (by rw [odd, Nat.cast_one])
    rw [abs_le]
    push_cast
    rcases bit with even | odd
    · constructor <;> linarith
    · constructor <;> linarith
  · rw [abs_le]
    push_cast
    constructor <;> linarith

/-- A whole number within half a unit is a nearest one. -/
theorem nearest_int {m : ℕ} (near : |(m : ℝ) - t| ≤ 1 / 2) (z : ℤ) :
    |(m : ℝ) - t| ≤ |(z : ℝ) - t| := by
  by_cases same : z = m
  · rw [same, Int.cast_natCast]
  · have apart : (1 : ℝ) ≤ |(z : ℝ) - m| := by
      have whole : 1 ≤ |z - m| := Int.one_le_abs (sub_ne_zero.mpr same)
      exact_mod_cast whole
    have triangle := abs_sub_le (z : ℝ) t m
    rw [abs_sub_comm t] at triangle
    linarith

/-- Where a number is long enough, or its exponent the least, a nearest whole number of units is a
nearest one on the grid. -/
theorem nearest_onGrid {m : ℕ} {e : ℤ} (near : |(m : ℝ) - t| ≤ 1 / 2)
    (long : 2 ^ 52 ≤ t ∨ e = -1074) {r : ℝ} (grid : OnGrid r) :
    |(m : ℝ) * 2 ^ e - t * 2 ^ e| ≤ |r - t * 2 ^ e| := by
  have power : (0 : ℝ) < 2 ^ e := by positivity
  have units (z : ℤ) : |(m : ℝ) * 2 ^ e - t * 2 ^ e| ≤ |(z : ℝ) * 2 ^ e - t * 2 ^ e| := by
    rw [← sub_mul, ← sub_mul, abs_mul, abs_mul]
    exact mul_le_mul_of_nonneg_right (nearest_int near z) (abs_nonneg _)
  obtain ⟨n, f, rfl, small, lowest⟩ := grid
  by_cases le : e ≤ f
  · obtain ⟨z, same⟩ := exists_int_of_le (n := n) le
    rw [same]
    exact units z
  · -- A finer number on the grid lies below the least number that has a unit of this size.
    have full : (2 : ℝ) ^ 52 ≤ t := long.resolve_right (by omega)
    have below : (n : ℝ) * 2 ^ f ≤ 2 ^ 52 * 2 ^ e := by
      have halves : (2 : ℝ) ^ 53 * 2 ^ f ≤ 2 ^ 52 * 2 ^ e := by
        rw [← zpow_natCast, ← zpow_natCast, ← zpow_add₀ (by norm_num), ← zpow_add₀ (by norm_num)]
        exact zpow_le_zpow_right₀ (by norm_num) (by push_cast; omega)
      have few : (n : ℝ) ≤ 2 ^ 53 := by exact_mod_cast (le_abs_self n).trans small
      exact (mul_le_mul_of_nonneg_right few (by positivity)).trans halves
    have least_long : |(m : ℝ) * 2 ^ e - t * 2 ^ e| ≤ |(2 : ℝ) ^ 52 * 2 ^ e - t * 2 ^ e| := by
      have whole := units ((2 ^ 52 : ℕ) : ℤ)
      rwa [Int.cast_natCast, Nat.cast_pow, Nat.cast_ofNat] at whole
    have above : (2 : ℝ) ^ 52 * 2 ^ e ≤ t * 2 ^ e := mul_le_mul_of_nonneg_right full power.le
    rw [abs_of_nonpos (by linarith : (2 : ℝ) ^ 52 * 2 ^ e - t * 2 ^ e ≤ 0)] at least_long
    rw [abs_of_nonpos (by linarith : (n : ℝ) * 2 ^ f - t * 2 ^ e ≤ 0)]
    linarith

/-! ## §3 Rounding -/

variable {sign : Sign} {m : Nat} {e : Int}

/-- A significand and an exponent as rounding leaves them; the exponent may be too large for a
double. -/
structure Aligned (m : Nat) (e : Int) : Prop where
  small : m < 2 ^ 53
  least : -1074 ≤ e
  full : 2 ^ 52 ≤ m ∨ e = -1074

def IsRounded : UnpackedFloat → Prop
  | .finite _ m e _ => Aligned m e
  | .zero _ => True
  | .infinity _ | .notANumber => False

/-- The real number that a double taken apart stands for. -/
noncomputable def valueOf (u : UnpackedFloat) : ℝ := amountOf u

/-- The side of zero that a sign stands for. -/
def side : Sign → ℝ
  | .negative => -1
  | .positive => 1

theorem valueOf_finite (sign : Sign) (m : Nat) (e : Int) (positive : 0 < m) :
    valueOf (.finite sign m e positive) = side sign * (m * 2 ^ e) := by
  cases sign <;> simp [valueOf, amountOf, side, Sign.apply]

theorem valueOf_zero (sign : Sign) : valueOf (.zero sign) = 0 := by
  simp [valueOf, amountOf]

theorem abs_side (sign : Sign) : |side sign| = 1 := by
  cases sign <;> simp [side]

/-- The double, taken apart, is rounded, and nothing on the grid lies nearer to the number. -/
structure Nearest (u : UnpackedFloat) (q : ℝ) : Prop where
  rounded : IsRounded u
  nearest : ∀ r, OnGrid r → |valueOf u - q| ≤ |r - q|

theorem nearest_self {u : UnpackedFloat} (rounded : IsRounded u) : Nearest u (valueOf u) :=
  ⟨rounded, fun r _ => by rw [sub_self, abs_zero]; exact abs_nonneg _⟩

/-- Which side of zero a number is on makes no difference. -/
theorem nearest_side {u : UnpackedFloat} {m : ℝ} {q : ℝ} (rounded : IsRounded u)
    (same : valueOf u = side sign * m) (nearest : ∀ r, OnGrid r → |m - q| ≤ |r - q|) :
    Nearest u (side sign * q) := by
  refine ⟨rounded, fun r grid => ?_⟩
  have flipped : OnGrid (side sign * r) := by
    cases sign with
    | positive => rwa [side, one_mul]
    | negative => rw [side, neg_one_mul]; exact onGrid_neg grid
  have twice : side sign * side sign = 1 := by cases sign <;> simp [side]
  have mirrored : r - side sign * q = side sign * (side sign * r - q) := by
    rw [mul_sub, ← mul_assoc, twice, one_mul]
  rw [same, ← mul_sub, mirrored, abs_mul, abs_mul, abs_side, one_mul, one_mul]
  exact nearest _ flipped

/-- What rounding has made is brought back to 53 bits. -/
theorem shift_rounded (sign : Sign) {r : Nat} (most : r ≤ 2 ^ 53) (least : -1074 ≤ e)
    (full : 2 ^ 52 ≤ r ∨ e = -1074) :
    let last := shiftToTargetExponent Format.binary64 r e .exact
    let u := if h : last.1.mantissa = 0 then UnpackedFloat.zero sign
      else .finite sign last.1.mantissa last.2 (Nat.pos_of_ne_zero h)
    IsRounded u ∧ valueOf u = side sign * (r * 2 ^ e) := by
  rcases Nat.lt_or_eq_of_le most with small | rfl
  · rw [shift_small small least]
    by_cases none : r = 0
    · simp [none, IsRounded, valueOf_zero]
    · simp only [none, dif_neg, not_false_iff]
      exact ⟨⟨small, least, full⟩, valueOf_finite _ _ _ _⟩
  · rw [shift_carry least]
    have aligned : Aligned (2 ^ 52) (e + 1) := ⟨by decide, by omega, .inl le_rfl⟩
    refine ⟨aligned, ?_⟩
    refine (valueOf_finite sign (2 ^ 52) (e + 1) (by decide)).trans ?_
    rw [zpow_add_one₀ (by norm_num : (2 : ℝ) ≠ 0)]
    push_cast
    ring

/-- **A number that is cut and told by a significand is rounded to a nearest double**, if the
significand is long enough or its exponent low enough. -/
theorem roundWithAccuracy_nearest (sign : Sign) {accuracy : Accuracy}
    (cuts : Cuts t (.ofMantissaAndAccuracy m accuracy)) (low : 2 ^ 52 ≤ m ∨ e ≤ -1074) :
    Nearest (roundWithAccuracy Format.binary64 sign m e accuracy) (side sign * (t * 2 ^ e)) := by
  have bits : 2 ^ 52 ≤ m → 52 ≤ m.log2 := fun long => (Nat.le_log2 (by omega)).mpr long
  obtain ⟨k, target⟩ : ∃ k : ℕ, max ((m.log2 : ℤ) + e - 52) (-1074) = e + k :=
    ⟨(max ((m.log2 : ℤ) + e - 52) (-1074) - e).toNat, by omega⟩
  have first : shiftToTargetExponent Format.binary64 m e accuracy =
      (ExtendedMantissa.ofMantissaAndAccuracy m accuracy >>> k, e + k) := by
    have steps : (max ((m.log2 : ℤ) + e - 52) (-1074) - e).toNat = k := by omega
    simp only [shiftToTargetExponent, shiftToExponent, targetExponent_eq, steps]
  have whole : (ExtendedMantissa.ofMantissaAndAccuracy m accuracy >>> k).mantissa = m / 2 ^ k := by
    rw [mantissa_shift]
    rcases accuracy with _ | (_ | _ | _) <;> rfl
  have cut := cuts_shift cuts k
  generalize ExtendedMantissa.ofMantissaAndAccuracy m accuracy >>> k = em at first whole cut
  obtain ⟨up, near⟩ := roundedMantissa_bounds em
  have within := (cuts_bounds cut).1
  rw [whole] at up near within
  have short : m / 2 ^ k < 2 ^ 53 := by
    rw [Nat.div_lt_iff_lt_mul (Nat.two_pow_pos k), ← Nat.pow_add]
    exact Nat.lt_of_lt_of_le Nat.lt_log2_self (Nat.pow_le_pow_right (by decide) (by omega))
  have full : 2 ^ 52 ≤ m / 2 ^ k ∨ e + k = -1074 := by
    by_cases lowest : e + (k : ℤ) = -1074
    · exact .inr lowest
    · have log : m.log2 = 52 + k := by omega
      have nonzero : m ≠ 0 := by
        rintro rfl
        rw [Nat.log2_zero] at log
        omega
      left
      rw [Nat.le_div_iff_mul_le (Nat.two_pow_pos k), ← Nat.pow_add, ← log]
      exact Nat.log2_self_le nonzero
  have least : -1074 ≤ e + (k : ℤ) := by omega
  obtain ⟨rounded, same⟩ := shift_rounded (r := em.roundedMantissa) sign (by omega) least
    (full.imp_left fun long => long.trans up)
  have long : (2 : ℝ) ^ 52 ≤ t / 2 ^ k ∨ e + (k : ℤ) = -1074 :=
    full.imp_left fun long => le_trans (by exact_mod_cast long) within
  have scaled : t * 2 ^ e = t / 2 ^ k * 2 ^ (e + (k : ℤ)) := by
    rw [zpow_add₀ (by norm_num : (2 : ℝ) ≠ 0), zpow_natCast]
    field_simp
  rw [scaled]
  refine nearest_side ?_ ?_ fun r grid => nearest_onGrid (cuts_rounded cut) long grid
  · simpa only [roundWithAccuracy, first] using rounded
  · simpa only [roundWithAccuracy, first] using same

/-- A number with a significand of any length is rounded to a nearest double. -/
theorem round_nearest (sign : Sign) (positive : 0 < m) :
    Nearest (UnpackedFloat.round Format.binary64 sign m e) (side sign * (m * 2 ^ e)) := by
  obtain ⟨k, steps⟩ : ∃ k : ℕ, (e - max ((m.log2 : ℤ) + e - 52) (-1074)).toNat = k := ⟨_, rfl⟩
  have longer : decreaseExponent m e (max ((m.log2 : ℤ) + e - 52) (-1074)) =
      (m * 2 ^ k, e - k) := by
    simp only [decreaseExponent, steps, Nat.shiftLeft_eq]
  have low : 2 ^ 52 ≤ m * 2 ^ k ∨ e - (k : ℤ) ≤ -1074 := by
    by_cases lowest : e - (k : ℤ) ≤ -1074
    · exact .inr lowest
    · have log : 52 ≤ m.log2 + k := by omega
      left
      calc 2 ^ 52 ≤ 2 ^ (m.log2 + k) := Nat.pow_le_pow_right (by decide) log
        _ = 2 ^ m.log2 * 2 ^ k := Nat.pow_add 2 _ _
        _ ≤ m * 2 ^ k := Nat.mul_le_mul_right _ (Nat.log2_self_le (by omega))
  have cuts : Cuts ((m * 2 ^ k : ℕ) : ℝ) (.ofMantissaAndAccuracy (m * 2 ^ k) .exact) := rfl
  have scaled : (m : ℝ) * 2 ^ e = ((m * 2 ^ k : ℕ) : ℝ) * 2 ^ (e - (k : ℤ)) := by
    rw [zpow_sub₀ (by norm_num : (2 : ℝ) ≠ 0), zpow_natCast]
    push_cast
    field_simp
  rw [scaled]
  simp only [UnpackedFloat.round, targetExponent_eq, longer]
  exact roundWithAccuracy_nearest sign cuts low

theorem normalize_nearest (z e : Int) :
    Nearest (UnpackedFloat.normalize Format.binary64 z e .positive) ((z : ℝ) * 2 ^ e) := by
  have zero : Nearest (.zero .positive) 0 := by
    simpa only [valueOf_zero] using nearest_self (u := .zero .positive) trivial
  obtain ⟨n, rfl | rfl⟩ := z.eq_nat_or_neg
  · rcases Nat.eq_zero_or_pos n with rfl | positive
    · simpa [UnpackedFloat.normalize] using zero
    · have order : compare (n : Int) 0 = .gt := Int.compare_eq_gt.mpr (by omega)
      simpa only [UnpackedFloat.normalize, order, Int.toNat_natCast, side, one_mul,
        Int.cast_natCast] using round_nearest (e := e) .positive positive
  · rcases Nat.eq_zero_or_pos n with rfl | positive
    · simpa [UnpackedFloat.normalize] using zero
    · have order : compare (-(n : Int)) 0 = .lt := Int.compare_eq_lt.mpr (by omega)
      simpa only [UnpackedFloat.normalize, order, Int.neg_neg, Int.toNat_natCast, side,
        one_mul, Int.cast_neg, Int.cast_natCast, neg_mul] using
          round_nearest (e := e) .negative positive

/-! ## §4 Doubles -/

/-- The real number that a double stands for, zero for one that is not finite. -/
noncomputable def value (x : Float) : ℝ := valueOf x.toModel.unpack

/-- Numbers of this size and smaller ones are rounded to finite doubles. -/
noncomputable def ceiling : ℝ := 2 ^ (1023 : ℤ)

/-- Numbers of this size and larger ones are rounded to infinities. It is half a unit above the
largest finite double, which has all 53 bits and the largest exponent. -/
noncomputable def overflowLimit : ℝ := (2 ^ 53 - 1 / 2) * 2 ^ (971 : ℤ)

/-- Numbers of this size and smaller ones are rounded to zero. It is half the least double above
zero. -/
noncomputable def underflowLimit : ℝ := 1 / 2 * 2 ^ (-1074 : ℤ)

theorem two_zpow_le_ceiling {e : ℤ} (le : e ≤ 1023) : (2 : ℝ) ^ e ≤ ceiling :=
  zpow_le_zpow_right₀ (by norm_num) le

theorem onGrid_ceiling : OnGrid ceiling := onGrid_two_zpow (by decide)

/-- The double is a rounded form of the number: it is finite unless the number is very large, and if
it is, nothing on the grid lies nearer. -/
structure RoundsTo (x : Float) (q : ℝ) : Prop where
  number : x.isNaN = false
  finite : |q| ≤ ceiling → x.isFinite = true
  nearest : x.isFinite = true → ∀ r, OnGrid r → |value x - q| ≤ |r - q|

theorem isRounded_of_isRegular {u : UnpackedFloat} (regular : IsRegular u) : IsRounded u := by
  cases u with
  | finite sign m e positive => exact ⟨regular.small, regular.least, regular.full⟩
  | zero => trivial
  | infinity | notANumber => exact regular.elim

/-- An exponent that is too large for a double gives an infinity. -/
theorem unpack_pack_large {positive : 0 < m} (large : 971 < e) :
    (pack (.finite sign m e positive)).unpack = .infinity sign := by
  have infinite : UnpackedFloat.pack Format.binary64 (.finite sign m e positive) =
      packedInfinity Format.binary64 sign := by
    rw [UnpackedFloat.pack]
    simp only [field_eq]
    rw [if_pos (by simp; omega)]
  change UnpackedFloat.unpack _ (UnpackedFloat.pack _ _) = _
  rw [infinite]
  cases sign <;> rfl

/-- Nothing else is lost in packing. -/
theorem unpack_pack_of_isRounded {u : UnpackedFloat} (rounded : IsRounded u) :
    (pack u).unpack = u ∨ ∃ sign, (pack u).unpack = .infinity sign := by
  cases u with
  | zero sign => cases sign <;> exact .inl rfl
  | infinity | notANumber => exact rounded.elim
  | finite sign m e positive =>
    obtain ⟨small, least, full⟩ := rounded
    by_cases most : e ≤ 971
    · exact .inl (unpack_pack ⟨small, least, most, full⟩ positive)
    · exact .inr ⟨sign, unpack_pack_large (by omega)⟩

theorem unpack_pack_of_isFinite {u : UnpackedFloat} (rounded : IsRounded u)
    (finite : (pack u).unpack.isFinite = true) : (pack u).unpack = u := by
  rcases unpack_pack_of_isRounded rounded with kept | ⟨sign, infinite⟩
  · exact kept
  · rw [infinite] at finite
    exact absurd finite Bool.false_ne_true

theorem le_of_nearest {a q r : ℝ} (near : |a - q| ≤ |r - q|) (le : q ≤ r) : a ≤ r := by
  rw [abs_of_nonneg (sub_nonneg.mpr le)] at near
  have above := le_abs_self (a - q)
  linarith

theorem ge_of_nearest {a q r : ℝ} (near : |a - q| ≤ |r - q|) (le : r ≤ q) : r ≤ a := by
  rw [abs_of_nonpos (sub_nonpos.mpr le)] at near
  have below := neg_le_abs (a - q)
  linarith

/-- A number of moderate size is rounded to a finite double. -/
theorem isRegular_of_nearest {u : UnpackedFloat} {q : ℝ} (nearest : Nearest u q)
    (moderate : |q| ≤ ceiling) : IsRegular u := by
  obtain ⟨low, high⟩ := abs_le.mp moderate
  have below := le_of_nearest (nearest.nearest _ onGrid_ceiling) high
  have above := ge_of_nearest (nearest.nearest _ (onGrid_neg onGrid_ceiling)) low
  have rounded := nearest.rounded
  cases u with
  | zero => trivial
  | infinity | notANumber => exact rounded.elim
  | finite sign m e positive =>
    obtain ⟨small, least, full⟩ := rounded
    refine ⟨small, least, ?_, full⟩
    by_contra large
    have long : (2 : ℝ) ^ (52 : ℤ) ≤ m := by exact_mod_cast full.resolve_right (by omega)
    have power : (2 : ℝ) ^ (972 : ℤ) ≤ 2 ^ e := zpow_le_zpow_right₀ (by norm_num) (by omega)
    have beyond : ceiling < m * 2 ^ e := by
      calc ceiling < (2 : ℝ) ^ (1024 : ℤ) := zpow_lt_zpow_right₀ (by norm_num) (by norm_num)
        _ = 2 ^ (52 : ℤ) * 2 ^ (972 : ℤ) := by
            rw [← zpow_add₀ (by norm_num : (2 : ℝ) ≠ 0)]
            rfl
        _ ≤ m * 2 ^ e := mul_le_mul long power (by positivity) (by positivity)
    rw [valueOf_finite] at below above
    cases sign <;> simp only [side] at below above <;> linarith

/-- **What is packed after rounding is a rounded form of the number.** -/
theorem roundsTo_of_nearest {x : Float} {u : UnpackedFloat} {q : ℝ}
    (packed : x.toModel = pack u) (nearest : Nearest u q) : RoundsTo x q where
  number := by
    change x.toModel.unpack.isNaN = false
    rw [packed]
    rcases unpack_pack_of_isRounded nearest.rounded with kept | ⟨sign, infinite⟩
    · have rounded := nearest.rounded
      rw [kept]
      cases u with
      | finite | zero => rfl
      | infinity | notANumber => exact rounded.elim
    · rw [infinite]
      rfl
  finite moderate := by
    have regular := isRegular_of_nearest nearest moderate
    change x.toModel.unpack.isFinite = true
    rw [packed, unpack_pack_of_isRegular regular]
    exact isFinite_of_isRegular regular
  nearest finite r grid := by
    change x.toModel.unpack.isFinite = true at finite
    rw [packed] at finite
    rw [value, packed, unpack_pack_of_isFinite nearest.rounded finite]
    exact nearest.nearest r grid

variable {x y : Float} {q p r : ℝ}

theorem onGrid_value (x : Float) : OnGrid (value x) := by
  unfold value
  cases unpacked : x.toModel.unpack with
  | zero | infinity | notANumber =>
    simpa [valueOf, amountOf] using onGrid_zero
  | finite sign m e positive =>
    obtain ⟨small, least, -, -⟩ := canonical_of_unpack unpacked
    refine ⟨sign.apply m, e, by simp [valueOf, amountOf], ?_, least⟩
    cases sign <;> simp only [Sign.apply, abs_neg, Nat.abs_cast] <;> omega

namespace RoundsTo

/-- A rounded form does not go past a number on the grid. -/
theorem le (rounds : RoundsTo x q) (finite : x.isFinite = true) (grid : OnGrid r) (le : q ≤ r) :
    value x ≤ r :=
  le_of_nearest (rounds.nearest finite r grid) le

theorem ge (rounds : RoundsTo x q) (finite : x.isFinite = true) (grid : OnGrid r) (le : r ≤ q) :
    r ≤ value x :=
  ge_of_nearest (rounds.nearest finite r grid) le

/-- What is on the grid is not rounded. -/
theorem eq (rounds : RoundsTo x q) (finite : x.isFinite = true) (grid : OnGrid q) : value x = q :=
  le_antisymm (rounds.le finite grid le_rfl) (rounds.ge finite grid le_rfl)

/-- **Rounding keeps the order of numbers.** -/
theorem mono (rounds : RoundsTo x q) (rounds' : RoundsTo y p) (finite : x.isFinite = true)
    (finite' : y.isFinite = true) (lt : q < p) : value x ≤ value y := by
  by_contra crossed
  rw [not_le] at crossed
  have first := sq_le_sq.mpr (rounds.nearest finite _ (onGrid_value y))
  have second := sq_le_sq.mpr (rounds'.nearest finite' _ (onGrid_value x))
  -- Each of the two lies on its own side of the middle.
  nlinarith

end RoundsTo

/-- The double is finite, and lies between the bounds. -/
structure Within (low high : ℝ) (x : Float) : Prop where
  finite : x.isFinite = true
  ge : low ≤ value x
  le : value x ≤ high

/-- No result of moderate size is rounded past a bound: it is on the grid, and not too large. -/
structure IsBound (r : ℝ) : Prop where
  grid : OnGrid r
  moderate : |r| ≤ ceiling

theorem isBound_natCast {n : ℕ} (small : n ≤ 2 ^ 53) : IsBound n := by
  have size : |(n : ℝ)| ≤ 2 ^ (53 : ℤ) := by
    rw [Nat.abs_cast]
    exact_mod_cast small
  have grid : OnGrid ((n : ℤ) : ℝ) :=
    onGrid_intCast (by rw [Nat.abs_cast]; exact_mod_cast small)
  exact ⟨by rwa [Int.cast_natCast] at grid, size.trans (two_zpow_le_ceiling (by decide))⟩

theorem isBound_zero : IsBound 0 := by
  simpa only [Nat.cast_zero] using isBound_natCast (n := 0) (by decide)

theorem isBound_one : IsBound 1 := by
  simpa only [Nat.cast_one] using isBound_natCast (n := 1) (by decide)

theorem isBound_ofNat {n : ℕ} [n.AtLeastTwo] (small : n ≤ 2 ^ 53) :
    IsBound (OfNat.ofNat n : ℝ) :=
  isBound_natCast small

theorem isBound_neg {r : ℝ} (bound : IsBound r) : IsBound (-r) :=
  ⟨onGrid_neg bound.grid, by rw [abs_neg]; exact bound.moderate⟩

theorem isBound_two_zpow {e : ℤ} (least : -1074 ≤ e) (most : e ≤ 1023) :
    IsBound ((2 : ℝ) ^ e) := by
  refine ⟨onGrid_two_zpow least, ?_⟩
  rw [abs_of_nonneg (by positivity)]
  exact two_zpow_le_ceiling most

theorem isBound_half : IsBound (1 / 2) := by
  have half := isBound_two_zpow (e := -1) (by decide) (by decide)
  norm_num at half
  norm_num
  exact half

/-- **A result between two bounds is rounded to a double between them.** -/
theorem RoundsTo.within (rounds : RoundsTo x q) {low high : ℝ} (first : IsBound low)
    (last : IsBound high) (ge : low ≤ q) (le : q ≤ high) : Within low high x := by
  have moderate : |q| ≤ ceiling :=
    abs_le.mpr ⟨(abs_le.mp first.moderate).1.trans ge, le.trans (abs_le.mp last.moderate).2⟩
  have finite := rounds.finite moderate
  exact ⟨finite, rounds.ge finite first.grid ge, rounds.le finite last.grid le⟩

end BusinessCase
