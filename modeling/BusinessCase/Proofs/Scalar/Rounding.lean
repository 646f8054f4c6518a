/-
BusinessCase.Proofs.Scalar.Rounding — how far adding doubles is off.

A finite double is a whole number below `2 ^ 53` times a power of two. What two
of them add up to is rounded to such a number again, and what the rounding
changes is at most the part `2 ^ (-52)` of the exact sum: no part is lost below
the least power, because the doubles that are added end there as well. The sum
is finite unless the exact one comes near the end of the range.

  §1 Values    — `amount`, the number that a double stands for; `Canonical`.
  §2 Packing   — `unpack_pack`, nothing is lost.
  §3 Rounding  — `round_near`.
  §4 Additions — `add_near` and `sub_near`.
-/
import Mathlib
import BusinessCase.Proofs.Scalar.Order

namespace BusinessCase

open Float.Model Float.Model.UnpackedFloat

variable {sign : Sign} {m : Nat} {e : Int}

/-! ## §1 Values -/

/-- The number that a double stands for, zero for one that is not finite. -/
def amountOf : UnpackedFloat → ℚ
  | .finite sign m e _ => (sign.apply m : ℚ) * 2 ^ e
  | .zero _ | .infinity _ | .notANumber => 0

def amount (x : Float) : ℚ := amountOf x.toModel.unpack

/-- The significand and the exponent of a double. -/
structure Canonical (m : Nat) (e : Int) : Prop where
  small : m < 2 ^ 53
  least : -1074 ≤ e
  most : e ≤ 971
  full : 2 ^ 52 ≤ m ∨ e = -1074

/-! ## §2 Packing -/

theorem toNat_append_one (bits : BitVec 52) : (1#1 ++ bits).toNat = 2 ^ 52 + bits.toNat := by
  rw [BitVec.toNat_append, ← Nat.shiftLeft_add_eq_or_of_lt bits.isLt]
  rfl

/-- Unpacking gives canonical numbers. -/
theorem canonical_of_unpack {v : Float.Model} {positive : 0 < m}
    (h : v.unpack = .finite sign m e positive) : Canonical m e := by
  unfold Float.Model.unpack UnpackedFloat.unpack at h
  have bias : (Format.binary64.exponentBias : Int) = 1023 := rfl
  have bits : (Format.binary64.mantissaBitsWithoutImplicit : Int) = 52 := rfl
  have fraction : (@unpackMantissa Format.binary64 v.toBits.toBitVec).toNat < 2 ^ 52 :=
    (unpackMantissa _).isLt
  have field : (@unpackExponent Format.binary64 v.toBits.toBitVec).toNat < 2 ^ 11 :=
    (unpackExponent _).isLt
  dsimp only at h
  split at h
  · split at h <;> cases h
  · next finite =>
    have notLast : (@unpackExponent Format.binary64 v.toBits.toBitVec).toNat ≠ 2047 :=
      fun last => finite (BitVec.eq_of_toNat_eq last)
    split at h
    · next low =>
      split at h
      · cases h
      · cases h
        have none : (@unpackExponent Format.binary64 v.toBits.toBitVec).toNat = 0 := by
          rw [low]
          rfl
        rw [none, bias, bits]
        exact ⟨by omega, by omega, by omega, .inr (by omega)⟩
    · next high =>
      cases h
      have some_bit : (@unpackExponent Format.binary64 v.toBits.toBitVec).toNat ≠ 0 :=
        fun none => high (BitVec.eq_of_toNat_eq none)
      rw [toNat_append_one, bias, bits]
      exact ⟨by omega, by omega, by omega, .inl (by omega)⟩

theorem congr_finite {m' : Nat} {e' : Int} {positive : 0 < m} {positive' : 0 < m'} (hm : m = m')
    (he : e = e') : UnpackedFloat.finite sign m e positive = .finite sign m' e' positive' := by
  subst hm he
  rfl

theorem ofNat_ne {w n : Nat} {bits : BitVec w} (small : n < 2 ^ w) (other : n ≠ bits.toNat) :
    BitVec.ofNat w n ≠ bits := by
  rintro rfl
  exact other (by rw [BitVec.toNat_ofNat, Nat.mod_eq_of_lt small])

/-- The exponent field of a number. -/
theorem field_eq (e : Int) :
    (e + Format.binary64.exponentBias + ((52 : Nat) : Int)).toNat = (e + 1075).toNat := by
  have bias : (Format.binary64.exponentBias : Int) = 1023 := rfl
  rw [bias]
  omega

theorem unpack_pack_normal (full : 2 ^ 52 ≤ m) (small : m < 2 ^ 53) (least : -1074 ≤ e)
    (most : e ≤ 971) (positive : 0 < m) :
    UnpackedFloat.unpack Format.binary64
      (UnpackedFloat.pack Format.binary64 (.finite sign m e positive)) =
        .finite sign m e positive := by
  have log : m.log2 = 52 := (Nat.log2_eq_iff (by omega)).mpr ⟨full, small⟩
  have whole : Format.binary64.mantissaBits = 53 := rfl
  have notLast : BitVec.ofNat 11 (e + 1075).toNat ≠ -1#11 :=
    ofNat_ne (by omega) (by simp; omega)
  have notFirst : BitVec.ofNat 11 (e + 1075).toNat ≠ 0#11 :=
    ofNat_ne (by omega) (by simp; omega)
  rw [UnpackedFloat.pack]
  simp only [log, field_eq, whole]
  rw [if_neg (by omega), if_pos trivial, UnpackedFloat.unpack]
  simp only [unpackMantissa_packComponents, unpackExponent_packComponents,
    unpackSign_packComponents, Sign.ofBitVec_toBitVec]
  rw [if_neg notLast, if_neg notFirst]
  have significand : (1#1 ++ BitVec.ofNat 52 m).toNat = m := by
    rw [toNat_append_one, BitVec.toNat_ofNat]
    omega
  have exponent : ((BitVec.ofNat 11 (e + 1075).toNat).toNat : Int) -
      (Format.binary64.exponentBias + Format.binary64.mantissaBitsWithoutImplicit) = e := by
    have bias : (Format.binary64.exponentBias : Int) = 1023 := rfl
    have width : (Format.binary64.mantissaBitsWithoutImplicit : Int) = 52 := rfl
    rw [BitVec.toNat_ofNat, bias, width]
    omega
  exact congr_finite significand exponent

theorem unpack_pack_subnormal (short : m < 2 ^ 52) (positive : 0 < m) :
    UnpackedFloat.unpack Format.binary64
      (UnpackedFloat.pack Format.binary64 (.finite sign m (-1074) positive)) =
        .finite sign m (-1074) positive := by
  have log : m.log2 < 52 := (Nat.log2_lt (by omega)).mpr short
  have whole : Format.binary64.mantissaBits = 53 := rfl
  have notZero : BitVec.ofNat 52 m ≠ 0#52 := ofNat_ne short (by simp; omega)
  rw [UnpackedFloat.pack]
  simp only [field_eq, whole]
  rw [if_neg (by decide), if_neg (by omega), UnpackedFloat.unpack]
  simp only [unpackMantissa_packComponents, unpackExponent_packComponents,
    unpackSign_packComponents, Sign.ofBitVec_toBitVec]
  rw [if_neg (by decide), if_pos trivial, dif_neg notZero]
  exact congr_finite (by rw [BitVec.toNat_ofNat, Nat.mod_eq_of_lt short]) rfl

/-- **Canonical numbers are packed without loss.** -/
theorem unpack_pack (canonical : Canonical m e) (positive : 0 < m) :
    (pack (.finite sign m e positive)).unpack = .finite sign m e positive := by
  obtain ⟨small, least, most, full⟩ := canonical
  by_cases normal : 2 ^ 52 ≤ m
  · exact unpack_pack_normal normal small least most positive
  · obtain rfl : e = -1074 := full.resolve_left normal
    exact unpack_pack_subnormal (by omega) positive

/-! ## §3 Rounding -/

theorem mantissa_shift (em : ExtendedMantissa) (k : Nat) :
    (em >>> k).mantissa = em.mantissa / 2 ^ k := by
  induction k with
  | zero => simp [HShiftRight.hShiftRight, Nat.repeat]
  | succ k ih =>
    have halved : (em >>> (k + 1)).mantissa = (em >>> k).mantissa / 2 := rfl
    rw [halved, ih, Nat.div_div_eq_div_mul, Nat.pow_succ]

/-- Rounding goes up by one, or not at all. -/
theorem roundedMantissa_bounds (em : ExtendedMantissa) :
    em.mantissa ≤ em.roundedMantissa ∧ em.roundedMantissa ≤ em.mantissa + 1 := by
  obtain ⟨m, round, sticky⟩ := em
  cases round <;> cases sticky <;>
    simp only [ExtendedMantissa.roundedMantissa, ExtendedMantissa.accuracy,
      Accuracy.roundToNearestEven]
  all_goals omega

/-- The exponent that the format has for a number. -/
theorem targetExponent_eq (m : Nat) (e : Int) :
    Format.binary64.targetExponent (totalExponent m e) = max (m.log2 + e - 52) (-1074) := by
  have bits : (Format.binary64.mantissaBits : Int) = 53 := rfl
  have least : Format.binary64.minExponent = -1074 := rfl
  rw [Format.targetExponent, totalExponent, bits, least]
  omega

/-- A number that is small enough is not shifted. -/
theorem shift_small (small : m < 2 ^ 53) (least : -1074 ≤ e) :
    shiftToTargetExponent Format.binary64 m e .exact = (⟨m, false, false⟩, e) := by
  have log : m.log2 ≤ 52 := by
    by_cases zero : m = 0
    · simp [zero]
    · have := (Nat.log2_lt zero).mpr small
      omega
  have stays : (Format.binary64.targetExponent (totalExponent m e) - e).toNat = 0 := by
    rw [targetExponent_eq]
    omega
  simp only [shiftToTargetExponent, shiftToExponent, stays]
  simp [HShiftRight.hShiftRight, Nat.repeat, ExtendedMantissa.ofMantissaAndAccuracy]

/-- A number that rounding has made too long by a bit is shifted by it. -/
theorem shift_carry (least : -1074 ≤ e) :
    shiftToTargetExponent Format.binary64 (2 ^ 53) e .exact = (⟨2 ^ 52, false, false⟩, e + 1) := by
  have one : (Format.binary64.targetExponent (totalExponent (2 ^ 53) e) - e).toNat = 1 := by
    rw [targetExponent_eq, Nat.log2_two_pow]
    omega
  simp only [shiftToTargetExponent, shiftToExponent, one]
  rfl

/-- A number that fits is left alone. -/
theorem roundWithAccuracy_small (small : m < 2 ^ 53) (least : -1074 ≤ e) (positive : 0 < m) :
    roundWithAccuracy Format.binary64 sign m e .exact = .finite sign m e positive := by
  have stays : ExtendedMantissa.roundedMantissa ⟨m, false, false⟩ = m := rfl
  have nonzero : m ≠ 0 := by omega
  simp only [roundWithAccuracy, shift_small small least, stays, nonzero, dif_neg, not_false_iff]

/-- A longer number is cut to 53 bits, and then rounded. -/
theorem roundWithAccuracy_long (sign : Sign) (log : 52 < m.log2) (least : -1074 ≤ e)
    (most : m.log2 + e ≤ 1022) :
    ∃ (r m' : Nat) (e' : Int) (positive : 0 < m'), Canonical m' e' ∧
      roundWithAccuracy Format.binary64 sign m e .exact = .finite sign m' e' positive ∧
      (m' : ℚ) * 2 ^ e' = r * 2 ^ (e + (m.log2 - 52 : ℕ)) ∧
      m / 2 ^ (m.log2 - 52) ≤ r ∧ r ≤ m / 2 ^ (m.log2 - 52) + 1 := by
  obtain ⟨k, log_eq⟩ : ∃ k, m.log2 = 52 + k := ⟨m.log2 - 52, by omega⟩
  have long : m ≠ 0 := by
    rintro rfl
    simp at log
  have low : 2 ^ 52 ≤ m / 2 ^ k := by
    rw [Nat.le_div_iff_mul_le (Nat.two_pow_pos k), ← Nat.pow_add, ← log_eq]
    exact Nat.log2_self_le long
  have high : m / 2 ^ k < 2 ^ 53 := by
    rw [Nat.div_lt_iff_lt_mul (Nat.two_pow_pos k), ← Nat.pow_add]
    have := Nat.lt_log2_self (n := m)
    rwa [log_eq, show 52 + k + 1 = 53 + k by omega] at this
  -- The first shift leaves 53 bits, and rounding makes at most one more of them.
  have first : shiftToTargetExponent Format.binary64 m e .exact =
      ((⟨m, false, false⟩ : ExtendedMantissa) >>> k, e + k) := by
    have amount : (Format.binary64.targetExponent (totalExponent m e) - e).toNat = k := by
      rw [targetExponent_eq]
      omega
    simp only [shiftToTargetExponent, shiftToExponent, amount]
    rfl
  obtain ⟨up, near⟩ := roundedMantissa_bounds ((⟨m, false, false⟩ : ExtendedMantissa) >>> k)
  rw [mantissa_shift] at up near
  dsimp only at up near
  generalize rounded : ((⟨m, false, false⟩ : ExtendedMantissa) >>> k).roundedMantissa = r at up near
  rw [log_eq, show 52 + k - 52 = k by omega]
  by_cases fits : r < 2 ^ 53
  · have nonzero : r ≠ 0 := by omega
    refine ⟨r, r, e + k, by omega, ⟨fits, by omega, by omega, .inl (by omega)⟩, ?_, rfl, up, near⟩
    have second : shiftToTargetExponent Format.binary64 r (e + k) .exact =
        (⟨r, false, false⟩, e + k) := shift_small fits (by omega)
    simp only [roundWithAccuracy, first, rounded, second, nonzero, dif_neg, not_false_iff]
  · obtain rfl : r = 2 ^ 53 := by omega
    refine ⟨2 ^ 53, 2 ^ 52, e + k + 1, by decide, ⟨by decide, by omega, by omega, .inl le_rfl⟩,
      ?_, ?_, up, near⟩
    · have second : shiftToTargetExponent Format.binary64 (2 ^ 53) (e + k) .exact =
          (⟨2 ^ 52, false, false⟩, e + k + 1) := shift_carry (by omega)
      simp only [roundWithAccuracy, first, rounded, second]
      rfl
    · rw [zpow_add_one₀ (by norm_num : (2 : ℚ) ≠ 0)]
      push_cast
      ring

theorem log_add_le {n : Int} (positive : 0 < m) (bound : (m : ℚ) * 2 ^ e ≤ 2 ^ n) :
    m.log2 + e ≤ n := by
  have power : ((2 : ℚ) ^ (m.log2 : Int)) ≤ m := by
    rw [zpow_natCast]
    exact_mod_cast Nat.log2_self_le (by omega)
  have part : (2 : ℚ) ^ (m.log2 + e : Int) ≤ 2 ^ n := by
    rw [zpow_add₀ (by norm_num : (2 : ℚ) ≠ 0)]
    exact (mul_le_mul_of_nonneg_right power (by positivity)).trans bound
  exact (zpow_le_zpow_iff_right₀ (by norm_num : (1 : ℚ) < 2)).mp part

/-- What cutting a number and going up changes is at most the place of the last bit. -/
theorem abs_cut_le {r k : Nat} (low : m / 2 ^ k ≤ r) (high : r ≤ m / 2 ^ k + 1) :
    |(r : ℚ) * 2 ^ k - m| ≤ 2 ^ k := by
  have split := Nat.div_add_mod m (2 ^ k)
  have rest := Nat.mod_lt m (Nat.two_pow_pos k)
  have below : r * 2 ^ k ≤ m + 2 ^ k := by
    have whole := Nat.mul_le_mul_right (2 ^ k) high
    rw [Nat.add_mul, Nat.one_mul, Nat.mul_comm (m / 2 ^ k)] at whole
    omega
  have above : m ≤ r * 2 ^ k + 2 ^ k := by
    have whole := Nat.mul_le_mul_right (2 ^ k) low
    rw [Nat.mul_comm (m / 2 ^ k)] at whole
    omega
  have below' : (r : ℚ) * 2 ^ k ≤ m + 2 ^ k := by exact_mod_cast below
  have above' : (m : ℚ) ≤ r * 2 ^ k + 2 ^ k := by exact_mod_cast above
  rw [abs_le]
  constructor <;> linarith

/-- The part of a number that rounding can change. -/
def unit : ℚ := 2 ^ (-52 : Int)

theorem unit_nonneg : 0 ≤ unit := by
  unfold unit
  positivity

/-- A short number is made longer, and stays what it is. -/
theorem round_short (sign : Sign) (positive : 0 < m) (least : -1074 ≤ e) (short : m.log2 ≤ 52)
    (most : m.log2 + e ≤ 1022) :
    ∃ (m' : Nat) (e' : Int) (positive' : 0 < m'), Canonical m' e' ∧
      UnpackedFloat.round Format.binary64 sign m e = .finite sign m' e' positive' ∧
      (m' : ℚ) * 2 ^ e' = m * 2 ^ e := by
  obtain ⟨k, target⟩ : ∃ k : Nat, max ((m.log2 : Int) + e - 52) (-1074) = e - k :=
    ⟨(e - max ((m.log2 : Int) + e - 52) (-1074)).toNat, by omega⟩
  have small : m * 2 ^ k < 2 ^ 53 := by
    have below := Nat.lt_log2_self (n := m)
    calc m * 2 ^ k < 2 ^ (m.log2 + 1) * 2 ^ k :=
          Nat.mul_lt_mul_of_pos_right below (Nat.two_pow_pos k)
      _ = 2 ^ (m.log2 + 1 + k) := (Nat.pow_add 2 _ _).symm
      _ ≤ 2 ^ 53 := Nat.pow_le_pow_right (by decide) (by omega)
  have full : 2 ^ 52 ≤ m * 2 ^ k ∨ e - k = -1074 := by
    by_cases lowest : e - k = -1074
    · exact .inr lowest
    · have log : 52 = m.log2 + k := by omega
      rw [log, Nat.pow_add]
      exact .inl (Nat.mul_le_mul_right _ (Nat.log2_self_le (by omega)))
  have positive' : 0 < m * 2 ^ k := Nat.mul_pos positive (Nat.two_pow_pos k)
  refine ⟨m * 2 ^ k, e - k, positive', ⟨small, by omega, by omega, full⟩, ?_, ?_⟩
  · have longer : decreaseExponent m e (e - k) = (m * 2 ^ k, e - k) := by
      have amount : (e - (e - (k : Int))).toNat = k := by omega
      simp only [decreaseExponent, amount, Nat.shiftLeft_eq]
    simp only [UnpackedFloat.round, targetExponent_eq, target, longer]
    exact roundWithAccuracy_small small (by omega) positive'
  · rw [zpow_sub₀ (by norm_num : (2 : ℚ) ≠ 0), zpow_natCast]
    push_cast
    field_simp

/-- A long number is cut, which changes a small part of it. -/
theorem round_long (sign : Sign) (long : 52 < m.log2) (least : -1074 ≤ e)
    (most : m.log2 + e ≤ 1022) :
    ∃ (m' : Nat) (e' : Int) (positive' : 0 < m'), Canonical m' e' ∧
      UnpackedFloat.round Format.binary64 sign m e = .finite sign m' e' positive' ∧
      |(m' : ℚ) * 2 ^ e' - m * 2 ^ e| ≤ unit * (m * 2 ^ e) := by
  have two : (2 : ℚ) ≠ 0 := by norm_num
  have nonzero : m ≠ 0 := by
    rintro rfl
    simp at long
  obtain ⟨r, m', e', positive', canonical, rounded, value, low, high⟩ :=
    roundWithAccuracy_long sign long least most
  refine ⟨m', e', positive', canonical, ?_, ?_⟩
  · have stays : decreaseExponent m e (max ((m.log2 : Int) + e - 52) (-1074)) = (m, e) := by
      have amount : (e - max ((m.log2 : Int) + e - 52) (-1074)).toNat = 0 := by omega
      simp only [decreaseExponent, amount]
      simp
    simp only [UnpackedFloat.round, targetExponent_eq, stays]
    exact rounded
  · obtain ⟨k, log⟩ : ∃ k, m.log2 = 52 + k := ⟨m.log2 - 52, by omega⟩
    rw [log, show 52 + k - 52 = k by omega] at value low high
    have cut : (r : ℚ) * 2 ^ (e + (k : Int)) - m * 2 ^ e = (r * 2 ^ k - m) * 2 ^ e := by
      rw [zpow_add₀ two, zpow_natCast]
      ring
    have last : (2 : ℚ) ^ k ≤ unit * m := by
      have power : ((2 : ℚ) ^ (52 + k)) ≤ m := by
        rw [← log]
        exact_mod_cast Nat.log2_self_le nonzero
      have split : (2 : ℚ) ^ k = unit * 2 ^ (52 + k) := by
        rw [unit, pow_add, ← mul_assoc, ← zpow_natCast (2 : ℚ) 52, ← zpow_add₀ two]
        norm_num
      rw [split]
      exact mul_le_mul_of_nonneg_left power unit_nonneg
    rw [value, cut, abs_mul, abs_of_nonneg (by positivity : (0 : ℚ) ≤ 2 ^ e), ← mul_assoc]
    exact mul_le_mul_of_nonneg_right ((abs_cut_le low high).trans last) (by positivity)

/-- **Rounding changes a small part of a number**, if its last bit is not below the least power. -/
theorem round_near (sign : Sign) (positive : 0 < m) (least : -1074 ≤ e)
    (bound : (m : ℚ) * 2 ^ e ≤ 2 ^ (1022 : Int)) :
    ∃ (m' : Nat) (e' : Int) (positive' : 0 < m'), Canonical m' e' ∧
      UnpackedFloat.round Format.binary64 sign m e = .finite sign m' e' positive' ∧
      |(m' : ℚ) * 2 ^ e' - m * 2 ^ e| ≤ unit * (m * 2 ^ e) := by
  have most := log_add_le positive bound
  by_cases short : m.log2 ≤ 52
  · obtain ⟨m', e', positive', canonical, rounded, same⟩ :=
      round_short sign positive least short most
    refine ⟨m', e', positive', canonical, rounded, ?_⟩
    rw [same, sub_self, abs_zero]
    exact mul_nonneg unit_nonneg (by positivity)
  · exact round_long sign (by omega) least most

/-! ## §4 Additions -/

/-- The number is finite, and packed without loss. -/
def IsRegular : UnpackedFloat → Prop
  | .finite _ m e _ => Canonical m e
  | .zero _ => True
  | .infinity _ | .notANumber => False

variable {u v : UnpackedFloat} {x y : Float}

theorem unpack_pack_of_isRegular (regular : IsRegular u) : (pack u).unpack = u := by
  cases u with
  | finite sign m e positive => exact unpack_pack regular positive
  | zero sign => cases sign <;> rfl
  | infinity | notANumber => exact regular.elim

theorem isFinite_of_isRegular (regular : IsRegular u) : u.isFinite = true := by
  cases u with
  | finite | zero => rfl
  | infinity | notANumber => exact regular.elim

theorem isRegular_of_isFinite (finite : x.isFinite = true) : IsRegular x.toModel.unpack := by
  cases unpacked : x.toModel.unpack with
  | finite => exact canonical_of_unpack unpacked
  | zero => trivial
  | infinity | notANumber =>
    change x.toModel.unpack.isFinite = true at finite
    rw [unpacked] at finite
    exact absurd finite Bool.false_ne_true

theorem apply_mul (sign : Sign) (m k : Nat) :
    sign.apply ((m * k : Nat) : Int) = sign.apply m * k := by
  cases sign <;> simp [Sign.apply]

/-- The number is what has been rounded, up to the part that rounding changes. -/
def Near (u : UnpackedFloat) (q : ℚ) : Prop := IsRegular u ∧ |amountOf u - q| ≤ unit * |q|

theorem near_self (regular : IsRegular u) : Near u (amountOf u) := by
  refine ⟨regular, ?_⟩
  rw [sub_self, abs_zero]
  exact mul_nonneg unit_nonneg (abs_nonneg _)

theorem round_signed (sign : Sign) (positive : 0 < m) (least : -1074 ≤ e)
    (bound : (m : ℚ) * 2 ^ e ≤ 2 ^ (1022 : Int)) :
    Near (UnpackedFloat.round Format.binary64 sign m e) ((sign.apply m : ℚ) * 2 ^ e) := by
  obtain ⟨m', e', positive', canonical, rounded, near⟩ :=
    round_near sign positive least bound
  rw [rounded]
  refine ⟨canonical, ?_⟩
  have size : 0 ≤ (m : ℚ) * 2 ^ e := by positivity
  cases sign with
  | positive =>
    simpa only [amountOf, Sign.apply, Int.cast_natCast, abs_of_nonneg size] using near
  | negative =>
    have flipped : -((m' : ℚ) * 2 ^ e') - -((m : ℚ) * 2 ^ e) =
        -((m' : ℚ) * 2 ^ e' - m * 2 ^ e) := by
      ring
    simpa only [amountOf, Sign.apply, Int.cast_neg, Int.cast_natCast, flipped, abs_neg, neg_mul,
      abs_of_nonneg size] using near

theorem normalize_near {z : Int} (least : -1074 ≤ e)
    (bound : |(z : ℚ) * 2 ^ e| ≤ 2 ^ (1022 : Int)) :
    Near (UnpackedFloat.normalize Format.binary64 z e .positive) ((z : ℚ) * 2 ^ e) := by
  have power : 0 ≤ (2 : ℚ) ^ e := by positivity
  rw [abs_mul, abs_of_nonneg power] at bound
  obtain ⟨n, rfl | rfl⟩ := z.eq_nat_or_neg
  · rcases Nat.eq_zero_or_pos n with rfl | positive
    · have zero : Near (.zero .positive) 0 := near_self (u := .zero .positive) trivial
      simpa [UnpackedFloat.normalize] using zero
    · have order : compare (n : Int) 0 = .gt := Int.compare_eq_gt.mpr (by omega)
      have size : (n : ℚ) * 2 ^ e ≤ 2 ^ (1022 : Int) := by simpa using bound
      have near := round_signed .positive positive least size
      simpa only [UnpackedFloat.normalize, order, Sign.apply, Int.toNat_natCast] using near
  · rcases Nat.eq_zero_or_pos n with rfl | positive
    · have zero : Near (.zero .positive) 0 := near_self (u := .zero .positive) trivial
      simpa [UnpackedFloat.normalize] using zero
    · have order : compare (-(n : Int)) 0 = .lt := Int.compare_eq_lt.mpr (by omega)
      have size : (n : ℚ) * 2 ^ e ≤ 2 ^ (1022 : Int) := by simpa using bound
      have near := round_signed .negative positive least size
      simpa only [UnpackedFloat.normalize, order, Sign.apply, Int.neg_neg, Int.toNat_natCast]
        using near

/-- A number is brought to a smaller exponent without loss. -/
theorem decreaseExponent_amount (sign : Sign) (m : Nat) {e target : Int} (le : target ≤ e) :
    (sign.apply (decreaseExponent m e target).1 : ℚ) * 2 ^ target = (sign.apply m : ℚ) * 2 ^ e := by
  obtain ⟨k, rfl⟩ : ∃ k : Nat, e = target + k := ⟨(e - target).toNat, by omega⟩
  have amount : (target + (k : Int) - target).toNat = k := by omega
  have two : (2 : ℚ) ≠ 0 := by norm_num
  simp only [decreaseExponent, amount, Nat.shiftLeft_eq, apply_mul, zpow_add₀ two, zpow_natCast]
  push_cast
  ring

/-- **Two regular numbers are added to what is near their sum**, unless that is near the end of
the range. -/
theorem add_near_unpacked (hu : IsRegular u) (hv : IsRegular v)
    (bound : |amountOf u + amountOf v| ≤ 2 ^ (1022 : Int)) :
    Near (UnpackedFloat.add Format.binary64 u v) (amountOf u + amountOf v) := by
  cases u with
  | infinity | notANumber => exact hu.elim
  | zero p =>
    cases v with
    | infinity | notANumber => exact hv.elim
    | zero q =>
      have zero : Near (.zero .positive) 0 := near_self (u := .zero .positive) trivial
      have other : Near (.zero .negative) 0 := near_self (u := .zero .negative) trivial
      cases p <;> cases q <;> simpa [UnpackedFloat.add, amountOf] using by assumption
    | finite q n f positive =>
      have same := near_self hv
      rwa [← zero_add (amountOf (.finite q n f positive))] at same
  | finite p m e positive =>
    cases v with
    | infinity | notANumber => exact hv.elim
    | zero q =>
      have same := near_self hu
      rwa [← add_zero (amountOf (.finite p m e positive))] at same
    | finite q n f positive' =>
      have least : -1074 ≤ min e f := le_min hu.least hv.least
      have exact_sum : ((p.apply (decreaseExponent m e (min e f)).1 +
          q.apply (decreaseExponent n f (min e f)).1 : Int) : ℚ) * 2 ^ min e f =
            amountOf (.finite p m e positive) + amountOf (.finite q n f positive') := by
        rw [Int.cast_add, add_mul, decreaseExponent_amount p m (min_le_left e f),
          decreaseExponent_amount q n (min_le_right e f)]
        rfl
      rw [← exact_sum] at bound ⊢
      exact normalize_near least bound

theorem isRegular_neg (regular : IsRegular u) : IsRegular u.neg := by
  cases u <;> exact regular

theorem neg_apply (sign : Sign) (n : Int) : (-sign).apply n = -sign.apply n := by
  cases sign with
  | positive => rfl
  | negative => exact (Int.neg_neg n).symm

theorem amountOf_neg (u : UnpackedFloat) : amountOf u.neg = -amountOf u := by
  cases u with
  | finite sign m e positive => simp [UnpackedFloat.neg, amountOf, neg_apply]
  | zero | infinity | notANumber => simp [UnpackedFloat.neg, amountOf]

/-- Subtracting is adding with the other sign. -/
theorem sub_unpacked (hu : IsRegular u) (hv : IsRegular v) :
    UnpackedFloat.sub Format.binary64 u v = UnpackedFloat.add Format.binary64 u v.neg := by
  cases u with
  | infinity | notANumber => exact hu.elim
  | zero p =>
    cases v with
    | infinity | notANumber => exact hv.elim
    | zero q => rfl
    | finite q n f positive => rfl
  | finite p m e positive =>
    cases v with
    | infinity | notANumber => exact hv.elim
    | zero q => rfl
    | finite q n f positive' =>
      simp only [UnpackedFloat.sub, UnpackedFloat.neg, UnpackedFloat.add, neg_apply,
        Int.sub_eq_add_neg]

/-- **Finite doubles are added to what is near their sum**, unless that is near the end of the
range. -/
theorem add_near (hx : x.isFinite = true) (hy : y.isFinite = true)
    (bound : |amount x + amount y| ≤ 2 ^ (1022 : Int)) :
    (x + y).isFinite = true ∧
      |amount (x + y) - (amount x + amount y)| ≤ unit * |amount x + amount y| := by
  obtain ⟨regular, near⟩ :=
    add_near_unpacked (isRegular_of_isFinite hx) (isRegular_of_isFinite hy) bound
  have sum : (x + y).toModel.unpack = UnpackedFloat.add Format.binary64 _ _ :=
    unpack_pack_of_isRegular regular
  refine ⟨?_, ?_⟩
  · change (x + y).toModel.unpack.isFinite = true
    rw [sum]
    exact isFinite_of_isRegular regular
  · change |amountOf (x + y).toModel.unpack - _| ≤ _
    rw [sum]
    exact near

theorem sub_near (hx : x.isFinite = true) (hy : y.isFinite = true)
    (bound : |amount x - amount y| ≤ 2 ^ (1022 : Int)) :
    (x - y).isFinite = true ∧
      |amount (x - y) - (amount x - amount y)| ≤ unit * |amount x - amount y| := by
  have hu := isRegular_of_isFinite hx
  have hv := isRegular_of_isFinite hy
  have flipped : amount x - amount y =
      amountOf x.toModel.unpack + amountOf y.toModel.unpack.neg := by
    rw [amountOf_neg, ← sub_eq_add_neg]
    rfl
  rw [flipped] at bound ⊢
  obtain ⟨regular, near⟩ := add_near_unpacked hu (isRegular_neg hv) bound
  rw [← sub_unpacked hu hv] at regular near
  have difference : (x - y).toModel.unpack = UnpackedFloat.sub Format.binary64 _ _ :=
    unpack_pack_of_isRegular regular
  refine ⟨?_, ?_⟩
  · change (x - y).toModel.unpack.isFinite = true
    rw [difference]
    exact isFinite_of_isRegular regular
  · change |amountOf (x - y).toModel.unpack - _| ≤ _
    rw [difference]
    exact near

end BusinessCase
