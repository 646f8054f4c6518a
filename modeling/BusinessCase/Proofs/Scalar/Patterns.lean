/-
BusinessCase.Proofs.Scalar.Patterns — doubles and their bit patterns.

What a double stands for is told by two fields of its bits, and the patterns of
positive doubles are in the order of what they stand for: the first is zero,
and the last that is no NaN is infinity.

  §1 Fields   — the fields of a double, `decode_value`.
  §2 Patterns — `finite_ofPattern`.
-/
import BusinessCase.Decimal.Binary64
import BusinessCase.Proofs.Scalar.Kinds

namespace BusinessCase

open Float.Model Float.Model.UnpackedFloat

/-! ## §1 Fields -/

/-- The fraction and the exponent field of a double's bits. -/
def fraction (bits : Nat) : Nat := bits % 2 ^ 52

def field (bits : Nat) : Nat := bits / 2 ^ 52 % 2048

theorem toNat_unpackMantissa (b : BitVec 64) :
    (@unpackMantissa Format.binary64 b).toNat = fraction b.toNat := by
  simp [unpackMantissa, fraction]

theorem toNat_unpackExponent (b : BitVec 64) :
    (@unpackExponent Format.binary64 b).toNat = field b.toNat := by
  simp [unpackExponent, field, Nat.shiftRight_eq_div_pow]

/-- The last exponent field is that of infinities; the first one has no leading bit. -/
theorem unpack_fields (b : BitVec 64) :
    let u := UnpackedFloat.unpack Format.binary64 b
    (u.isFinite = true ↔ field b.toNat ≠ 2047) ∧
      (field b.toNat = 0 → |valueOf u| = fraction b.toNat * 2 ^ (-1074 : ℤ)) ∧
      (field b.toNat ≠ 0 → field b.toNat ≠ 2047 →
        |valueOf u| = (2 ^ 52 + fraction b.toNat : ℕ) * 2 ^ ((field b.toNat : ℤ) - 1075)) := by
  have bias : (Format.binary64.exponentBias : Int) = 1023 := rfl
  have width : (Format.binary64.mantissaBitsWithoutImplicit : Int) = 52 := rfl
  have mantissa := toNat_unpackMantissa b
  have exponent := toNat_unpackExponent b
  rw [← mantissa, ← exponent]
  unfold UnpackedFloat.unpack
  dsimp only
  split
  · next last =>
    have top : (@unpackExponent Format.binary64 b).toNat = 2047 := by rw [last]; rfl
    rw [top]
    refine ⟨?_, fun none => absurd none (by decide), fun _ other => absurd rfl other⟩
    constructor
    · split <;> exact fun finite => absurd finite Bool.false_ne_true
    · exact fun other => absurd rfl other
  · next finite =>
    have other : (@unpackExponent Format.binary64 b).toNat ≠ 2047 :=
      fun last => finite (BitVec.eq_of_toNat_eq last)
    split
    · next low =>
      have none : (@unpackExponent Format.binary64 b).toNat = 0 := by rw [low]; rfl
      refine ⟨?_, fun _ => ?_, fun some_bit => absurd none some_bit⟩
      · split <;> exact ⟨fun _ => other, fun _ => rfl⟩
      · split
        · next zero =>
          have nothing : (@unpackMantissa Format.binary64 b).toNat = 0 := by rw [zero]; rfl
          rw [valueOf_zero, nothing, abs_zero, Nat.cast_zero, zero_mul]
        · rw [valueOf_finite, abs_mul, abs_side, one_mul, abs_of_nonneg (by positivity), none, bias,
            width]
          rfl
    · next high =>
      have some_bit : (@unpackExponent Format.binary64 b).toNat ≠ 0 :=
        fun none => high (BitVec.eq_of_toNat_eq none)
      refine ⟨⟨fun _ => other, fun _ => rfl⟩, fun none => absurd none some_bit, fun _ _ => ?_⟩
      rw [valueOf_finite, abs_mul, abs_side, one_mul, abs_of_nonneg (by positivity),
        toNat_append_one, bias, width]
      rfl

variable {x : Float}

/-- **What is decoded from a finite double is its absolute value.** -/
theorem decode_value (finite : x.isFinite = true) : ∃ d, Decimal.decode x = .finite d ∧
    |value x| = d.significand * 2 ^ d.exponent := by
  obtain ⟨finite_iff, low, high⟩ := unpack_fields x.toModel.toBits.toBitVec
  have other := finite_iff.mp finite
  have decoded : Decimal.decode x = if field x.toBits.toNat = 0 then
      .finite ⟨decide (Decimal.signBit ≤ x.toBits.toNat), fraction x.toBits.toNat, -1074⟩
      else .finite ⟨decide (Decimal.signBit ≤ x.toBits.toNat), 2 ^ 52 + fraction x.toBits.toNat,
        (field x.toBits.toNat : Int) - 1075⟩ := if_neg other
  rw [decoded]
  split
  · next none => exact ⟨_, rfl, low none⟩
  · next some_bit => exact ⟨_, rfl, high some_bit other⟩

/-! ## §2 Patterns -/

/-- The bits of a finite double are kept as they are. -/
theorem unpack_ofBits {bits : UInt64} (other : field bits.toNat ≠ 2047) :
    (Float.ofBits bits).toModel.unpack = UnpackedFloat.unpack Format.binary64 bits.toBitVec := by
  have valid : Format.binary64.Valid bits.toBitVec := by
    refine ⟨fun last _ => absurd ?_ other⟩
    have top := congrArg BitVec.toNat last
    rwa [toNat_unpackExponent] at top
  change UnpackedFloat.unpack _ (UnpackedFloat.pack _ (UnpackedFloat.unpack _ _)) = _
  rw [pack_unpack_of_valid valid]

/-- The sign bit is in front of the fields of a pattern. -/
theorem fields_ofPattern (negative : Bool) {bits : Nat} (small : bits ≤ Decimal.infinityPattern) :
    ∃ word : UInt64, Decimal.ofPattern negative bits = Float.ofBits word ∧
      field word.toNat = field bits ∧ fraction word.toNat = fraction bits := by
  have sign : Decimal.signBit = 2 ^ 63 := rfl
  have infinity : Decimal.infinityPattern = 2047 * 2 ^ 52 := rfl
  refine ⟨_, rfl, ?_⟩
  rw [UInt64.toNat_ofNat', field, fraction, field, fraction]
  cases negative <;> simp only [Bool.false_eq_true, if_true, if_false] <;> omega

/-- A pattern below that of infinity is the pattern of a finite double, which is zero only if the
pattern is. -/
theorem finite_ofPattern (negative : Bool) {bits : Nat} (small : bits < Decimal.infinityPattern) :
    (Decimal.ofPattern negative bits).isFinite = true ∧
      (value (Decimal.ofPattern negative bits) = 0 ↔ bits = 0) := by
  have infinity : Decimal.infinityPattern = 2047 * 2 ^ 52 := rfl
  obtain ⟨word, same, sameField, sameFraction⟩ := fields_ofPattern negative small.le
  have other : field word.toNat ≠ 2047 := by
    rw [sameField, field]
    omega
  obtain ⟨finite, low, high⟩ := unpack_fields word.toBitVec
  have unpacked := unpack_ofBits other
  rw [same]
  constructor
  · change (Float.ofBits word).toModel.unpack.isFinite = true
    rw [unpacked]
    exact finite.mpr other
  · rw [value, unpacked, ← abs_eq_zero]
    change field word.toNat = 0 → _ = (fraction word.toNat : ℝ) * _ at low
    change field word.toNat ≠ 0 → field word.toNat ≠ 2047 →
      _ = ((2 ^ 52 + fraction word.toNat : ℕ) : ℝ) * _ at high
    by_cases none : field word.toNat = 0
    · rw [low none, mul_eq_zero, Nat.cast_eq_zero, sameFraction,
        or_iff_left (zpow_ne_zero _ (by norm_num))]
      rw [sameField, field] at none
      rw [fraction]
      omega
    · rw [high none other]
      refine iff_of_false (by positivity) fun zero => none ?_
      rw [sameField, zero]
      rfl

end BusinessCase
