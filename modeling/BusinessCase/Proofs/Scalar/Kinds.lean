/-
BusinessCase.Proofs.Scalar.Kinds — which results are finite, and which are numbers.

Operations on finite doubles give numbers, though these may be too large to be
finite. What is not finite is not made finite again by adding, by multiplying
or by dividing it; only as a divisor can it leave something finite.

  §1 Infinite — operands that are not finite.
  §2 Sizes    — how large finite doubles are, and which have the same value.
  §3 Numerals — whole numbers as doubles.
-/
import BusinessCase.Proofs.Scalar.Arithmetic
import BusinessCase.Proofs.Scalar.Infinite
import BusinessCase.Scalar.Binary64

namespace BusinessCase

open Float.Model Float.Model.UnpackedFloat

variable {u v : UnpackedFloat} {x y : Float}

/-! ## §1 Infinite -/

/-- What is not finite is an infinity or no number. -/
theorem unpack_of_not_isFinite (h : x.isFinite = false) :
    x.toModel.unpack = .notANumber ∨ ∃ sign, x.toModel.unpack = .infinity sign := by
  change x.toModel.unpack.isFinite = false at h
  revert h
  generalize x.toModel.unpack = u
  intro h
  cases u with
  | notANumber => exact .inl rfl
  | infinity sign => exact .inr ⟨sign, rfl⟩
  | zero | finite => cases h

theorem isFinite_of_packed (packed : x.toModel = pack u) (h : u.isFinite = false) :
    x.isFinite = false := by
  change x.toModel.unpack.isFinite = false
  rw [packed, ExactSum.unpack_pack_of_not_isFinite h]
  exact h

/-- What is not finite is not made finite by a factor. -/
theorem isFinite_mul (y : Float) (h : x.isFinite = false) : (y * x).isFinite = false := by
  refine isFinite_of_packed rfl ?_
  generalize y.toModel.unpack = v
  rcases unpack_of_not_isFinite h with none | ⟨sign, infinite⟩
  · rw [none]
    cases v <;> rfl
  · rw [infinite]
    cases v <;> rfl

/-- What is not finite is not made finite by a divisor. -/
theorem isFinite_div (h : x.isFinite = false) (y : Float) : (x / y).isFinite = false := by
  refine isFinite_of_packed rfl ?_
  generalize y.toModel.unpack = v
  rcases unpack_of_not_isFinite h with none | ⟨sign, infinite⟩
  · rw [none]
    cases v <;> rfl
  · rw [infinite]
    cases v <;> rfl

/-- A finite double and a number have a difference. -/
theorem isNaN_sub (hx : x.isFinite = true) (hy : y.isNaN = false) : (x - y).isNaN = false := by
  cases finite : y.isFinite with
  | true => exact (sub_roundsTo hx finite).number
  | false =>
    have regular := isRegular_of_isFinite hx
    change (pack (UnpackedFloat.sub _ x.toModel.unpack y.toModel.unpack)).unpack.isNaN = false
    rcases unpack_of_not_isFinite finite with none | ⟨sign, infinite⟩
    · change y.toModel.unpack.isNaN = false at hy
      rw [none] at hy
      cases hy
    · have other : UnpackedFloat.sub Format.binary64 x.toModel.unpack y.toModel.unpack =
          .infinity (-sign) := by
        rw [infinite]
        revert regular
        generalize x.toModel.unpack = u
        intro regular
        cases u with
        | zero | finite => rfl
        | infinity | notANumber => exact regular.elim
      rw [other, ExactSum.unpack_pack_of_not_isFinite rfl]
      rfl

/-- The size of a number is a number. -/
theorem isNaN_abs (hx : x.isNaN = false) : x.abs.isNaN = false := by
  change x.toModel.unpack.isNaN = false at hx
  change (pack x.toModel.unpack.abs).unpack.isNaN = false
  cases unpacked : x.toModel.unpack with
  | notANumber =>
    rw [unpacked] at hx
    cases hx
  | infinity =>
    rw [UnpackedFloat.abs, ExactSum.unpack_pack_of_not_isFinite rfl]
    rfl
  | zero =>
    have regular : IsRegular (.zero .positive) := trivial
    rw [UnpackedFloat.abs, unpack_pack_of_isRegular regular]
    rfl
  | finite sign m e positive =>
    rw [UnpackedFloat.abs, unpack_pack (canonical_of_unpack unpacked)]
    rfl

theorem isInf_of_isFinite (h : x.isFinite = true) : x.isInf = false := by
  change x.toModel.unpack.isInf = false
  have regular := isRegular_of_isFinite h
  revert regular
  generalize x.toModel.unpack = u
  intro regular
  cases u with
  | zero | finite => rfl
  | infinity | notANumber => exact regular.elim

/-! ## §2 Sizes -/

/-- The value of a double lies below the power of two after the ceiling. -/
theorem abs_value_lt (x : Float) : |value x| < 2 * ceiling := by
  have ceiling_pos : 0 < 2 * ceiling := by
    unfold ceiling
    positivity
  unfold value
  cases unpacked : x.toModel.unpack with
  | zero | infinity | notANumber => simpa [valueOf, amountOf] using ceiling_pos
  | finite sign m e positive =>
    obtain ⟨small, -, most, -⟩ := canonical_of_unpack unpacked
    have digits : (m : ℝ) < 2 ^ (53 : ℤ) := by exact_mod_cast small
    have power : (2 : ℝ) ^ e ≤ 2 ^ (971 : ℤ) := zpow_le_zpow_right₀ (by norm_num) most
    rw [valueOf_finite, abs_mul, abs_side, one_mul, abs_of_nonneg (by positivity)]
    calc (m : ℝ) * 2 ^ e < 2 ^ (53 : ℤ) * 2 ^ e := mul_lt_mul_of_pos_right digits (by positivity)
      _ ≤ 2 ^ (53 : ℤ) * 2 ^ (971 : ℤ) := mul_le_mul_of_nonneg_left power (by positivity)
      _ = 2 * ceiling := by
        unfold ceiling
        rw [← zpow_add₀ (by norm_num : (2 : ℝ) ≠ 0), ← zpow_one_add₀ (by norm_num)]
        rfl

/-- Finite doubles of the same value are the same, unless they are zeros. -/
theorem eq_or_value_eq_zero (hx : x.isFinite = true) (hy : y.isFinite = true)
    (same : value x = value y) : x = y ∨ value x = 0 := by
  have zero : value 0 = 0 := valueOf_zero .positive
  have zero' : value (-0) = 0 := valueOf_zero .negative
  obtain ⟨-, -, equal | ⟨rfl, -⟩ | ⟨rfl, -⟩⟩ :=
    Float.beq_iff_ne_nan_and_eq.mp ((float_beq_iff_value hx hy).mpr same)
  · exact .inl equal
  · exact .inr zero
  · exact .inr zero'

/-- **Rounded differences lie as the differences do.** -/
theorem value_sub_le {x' y' : Float} (hx : x.isFinite = true) (hy : y.isFinite = true)
    (hx' : x'.isFinite = true) (hy' : y'.isFinite = true) (le : value x ≤ value x')
    (ge : value y' ≤ value y) (finite : (x - y).isFinite = true)
    (finite' : (x' - y').isFinite = true) : value (x - y) ≤ value (x' - y') := by
  have rounds := sub_roundsTo hx hy
  have rounds' := sub_roundsTo hx' hy'
  rcases (sub_le_sub le ge).lt_or_eq with lt | same
  · exact rounds.mono rounds' finite finite' lt
  · have heads : value x = value x' := by linarith
    have tails : value y = value y' := by linarith
    -- Rounding could break a tie in two ways, but a difference from zero is not rounded.
    have exact_difference (grid : OnGrid (value x - value y)) :
        value (x - y) = value (x' - y') := by
      rw [rounds.eq finite grid, rounds'.eq finite' (same ▸ grid), same]
    rcases eq_or_value_eq_zero hx hx' heads with rfl | zero
    · rcases eq_or_value_eq_zero hy hy' tails with rfl | zero
      · exact le_rfl
      · refine (exact_difference ?_).le
        rw [zero, sub_zero]
        exact onGrid_value x
    · refine (exact_difference ?_).le
      rw [zero, zero_sub]
      exact onGrid_neg (onGrid_value y)

/-! ## §3 Numerals -/

/-- A whole number that is not too large is a double. -/
theorem ofNat_within {n : ℕ} (small : n < 2 ^ 53) : Within n n (Float.ofNat n) := by
  have word {k : ℕ} (small : k < 2 ^ 53) : Within k k k.toUInt64.toFloat := by
    have same : k.toUInt64.toNat = k := Nat.mod_eq_of_lt (by omega)
    have rounded := normalize_nearest k 0
    rw [zpow_zero, mul_one, Int.cast_natCast] at rounded
    have packed : k.toUInt64.toFloat.toModel =
        pack (UnpackedFloat.normalize Format.binary64 k 0 .positive) := by
      change pack (UnpackedFloat.normalize _ (k.toUInt64.toNat : Int) 0 .positive) = _
      rw [same]
    exact (roundsTo_of_nearest packed rounded).within (isBound_natCast small.le)
      (isBound_natCast small.le) le_rfl le_rfl
  have one : Within (1 : ℕ) (1 : ℕ) (1 : ℕ).toUInt64.toFloat := word (by decide)
  have product : Float.ofNat n = n.toUInt64.toFloat * (1 : ℕ).toUInt64.toFloat :=
    dif_pos ⟨small, by decide⟩
  rw [product]
  exact (word small).mul one (Nat.cast_nonneg n) (Nat.cast_nonneg 1) (isBound_natCast small.le)
    (isBound_natCast small.le) (by rw [Nat.cast_one, mul_one]) (by rw [Nat.cast_one, mul_one])

theorem nat_within {n : ℕ} (small : n < 2 ^ 52) : Within n n (Scalar.nat n : Float) := by
  have hidden : Decimal.hiddenBit = 2 ^ 52 := rfl
  have numeral : (Scalar.nat n : Float) = Float.ofNat n := if_pos (by omega)
  rw [numeral]
  exact ofNat_within (by omega)

theorem value_nat {n : ℕ} (small : n < 2 ^ 52) : value (Scalar.nat n : Float) = n :=
  le_antisymm (nat_within small).le (nat_within small).ge

/-- A double between whole numbers, told by comparing doubles. -/
theorem within_of_le {m n : ℕ} (first : m < 2 ^ 52) (last : n < 2 ^ 52) (finite : x.isFinite = true)
    (ge : Scalar.nat m ≤ x) (le : x ≤ Scalar.nat n) : Within m n x where
  finite := finite
  ge := value_nat first ▸ (float_le_iff_value (nat_within first).finite finite).mp ge
  le := value_nat last ▸ (float_le_iff_value finite (nat_within last).finite).mp le

theorem value_zero : value (Scalar.nat 0) = 0 :=
  (value_nat (by decide)).trans Nat.cast_zero

theorem value_one : value (Scalar.nat 1) = 1 :=
  (value_nat (by decide)).trans Nat.cast_one

/-- Only a zero is equal to zero. -/
theorem beq_zero_of_value_ne (h : value x ≠ 0) : (x == Scalar.nat 0) = false := by
  cases finite : x.isFinite with
  | false => exact ExactSum.beq_zero_of_not_isFinite finite
  | true =>
    rw [← Bool.not_eq_true, float_beq_iff_value finite rfl, value_zero]
    exact h

end BusinessCase
