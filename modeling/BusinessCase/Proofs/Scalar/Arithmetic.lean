/-
BusinessCase.Proofs.Scalar.Arithmetic — what the operations of doubles give.

Each operation takes the exact result of its operands and rounds it once. What
is exact is told by `value`, and what rounding does to it by `RoundsTo`: so the
bounds of a result follow from the bounds of its operands in the real numbers.

  §1 Unpacked — sums, products, quotients and roots of doubles taken apart.
  §2 Doubles  — `add_roundsTo` and the like.
  §3 Order    — comparing doubles is comparing their values.
  §4 Bounds   — bounds of results from bounds of operands.
-/
import BusinessCase.Proofs.Scalar.Nearest

namespace BusinessCase

open Float.Model Float.Model.UnpackedFloat

variable {u v : UnpackedFloat}

/-! ## §1 Unpacked -/

theorem nearest_zero (sign : Sign) : Nearest (.zero sign) 0 := by
  simpa only [valueOf_zero] using nearest_self (u := .zero sign) trivial

theorem nearest_add (hu : IsRegular u) (hv : IsRegular v) :
    Nearest (UnpackedFloat.add Format.binary64 u v) (valueOf u + valueOf v) := by
  cases u with
  | infinity | notANumber => exact hu.elim
  | zero p =>
    rw [valueOf_zero, zero_add]
    cases v with
    | infinity | notANumber => exact hv.elim
    | zero q =>
      rw [valueOf_zero]
      cases p <;> cases q <;> exact nearest_zero _
    | finite q n f positive => exact nearest_self (isRounded_of_isRegular hv)
  | finite p m e positive =>
    cases v with
    | infinity | notANumber => exact hv.elim
    | zero q =>
      rw [valueOf_zero, add_zero]
      exact nearest_self (isRounded_of_isRegular hu)
    | finite q n f positive' =>
      have exact_sum : ((p.apply (decreaseExponent m e (min e f)).1 +
          q.apply (decreaseExponent n f (min e f)).1 : Int) : ℚ) * 2 ^ min e f =
            amountOf (.finite p m e positive) + amountOf (.finite q n f positive') := by
        rw [Int.cast_add, add_mul, decreaseExponent_amount p m (min_le_left e f),
          decreaseExponent_amount q n (min_le_right e f)]
        rfl
      have sum := congrArg (Rat.cast : ℚ → ℝ) exact_sum
      rw [Rat.cast_add, Rat.cast_mul, Rat.cast_intCast, Rat.cast_zpow, Rat.cast_ofNat] at sum
      rw [valueOf, valueOf, ← sum]
      exact normalize_nearest _ _

theorem valueOf_neg (u : UnpackedFloat) : valueOf u.neg = -valueOf u := by
  rw [valueOf, amountOf_neg, Rat.cast_neg, valueOf]

theorem nearest_sub (hu : IsRegular u) (hv : IsRegular v) :
    Nearest (UnpackedFloat.sub Format.binary64 u v) (valueOf u - valueOf v) := by
  rw [sub_unpacked hu hv, sub_eq_add_neg, ← valueOf_neg]
  exact nearest_add hu (isRegular_neg hv)

theorem side_mul (p q : Sign) : side (p * q) = side p * side q := by
  cases p <;> cases q
  · exact (by norm_num : (1 : ℝ) = -1 * -1)
  · exact (by norm_num : (-1 : ℝ) = -1 * 1)
  · exact (by norm_num : (-1 : ℝ) = 1 * -1)
  · exact (by norm_num : (1 : ℝ) = 1 * 1)

theorem side_div (p q : Sign) : side (p / q) = side p * side q := by
  have same : p / q = p * q := by cases p <;> cases q <;> rfl
  rw [same, side_mul]

theorem nearest_mul (hu : IsRegular u) (hv : IsRegular v) :
    Nearest (UnpackedFloat.mul Format.binary64 u v) (valueOf u * valueOf v) := by
  cases u with
  | infinity | notANumber => exact hu.elim
  | zero p =>
    rw [valueOf_zero, zero_mul]
    cases v with
    | infinity | notANumber => exact hv.elim
    | zero q | finite q n f positive => exact nearest_zero _
  | finite p m e positive =>
    cases v with
    | infinity | notANumber => exact hv.elim
    | zero q =>
      rw [valueOf_zero, mul_zero]
      exact nearest_zero _
    | finite q n f positive' =>
      -- Unless one of them is long, both have the least exponent.
      have low : 2 ^ 52 ≤ m * n ∨ e + f ≤ -1074 := by
        rcases hu.full with long | least
        · exact .inl (long.trans (Nat.le_mul_of_pos_right m positive'))
        · rcases hv.full with long | least'
          · exact .inl (long.trans (Nat.le_mul_of_pos_left n positive))
          · exact .inr (by omega)
      have product : valueOf (.finite p m e positive) * valueOf (.finite q n f positive') =
          side (p * q) * (((m * n : ℕ) : ℝ) * 2 ^ (e + f)) := by
        rw [valueOf_finite, valueOf_finite, side_mul, zpow_add₀ (by norm_num : (2 : ℝ) ≠ 0)]
        push_cast
        ring
      have cuts : Cuts ((m * n : ℕ) : ℝ) (.ofMantissaAndAccuracy (m * n) .exact) := rfl
      rw [product]
      exact roundWithAccuracy_nearest (p * q) cuts low

/-- A quotient is cut to its whole part, and the remainder tells the rest. -/
theorem cuts_quotient (a : ℕ) {b : ℕ} (positive : 0 < b) :
    Cuts ((a : ℝ) / b) (.ofMantissaAndAccuracy (a / b) (accuracyOfFraction (a % b) b)) := by
  have bound : (0 : ℝ) < b := by exact_mod_cast positive
  have split : (a : ℝ) = b * (a / b : ℕ) + (a % b : ℕ) := by
    exact_mod_cast (Nat.div_add_mod a b).symm
  have rest : (a % b : ℕ) < b := Nat.mod_lt a positive
  have quotient : (a : ℝ) / b = (a / b : ℕ) + (a % b : ℕ) / b := by
    rw [split, add_div, mul_div_cancel_left₀ _ bound.ne']
  rw [quotient]
  generalize a % b = r at rest
  have below : (r : ℝ) / b < 1 := (div_lt_one bound).mpr (by exact_mod_cast rest)
  unfold accuracyOfFraction
  split
  · next none =>
    rw [none, Nat.cast_zero, zero_div, add_zero]
    rfl
  · next some =>
    have above : (0 : ℝ) < r / b := div_pos (by exact_mod_cast Nat.pos_of_ne_zero some) bound
    cases order : compare (2 * r) b with
    | lt =>
      have half : (r : ℝ) / b < 1 / 2 := by
        rw [div_lt_div_iff₀ bound two_pos]
        have twice : 2 * r < b := Nat.compare_eq_lt.mp order
        have twice' : (2 : ℝ) * r < b := by exact_mod_cast twice
        linarith
      exact ⟨by linarith, by linarith⟩
    | eq =>
      have half : (r : ℝ) / b = 1 / 2 := by
        rw [div_eq_div_iff bound.ne' two_ne_zero]
        have twice : 2 * r = b := Nat.compare_eq_eq.mp order
        have twice' : (2 : ℝ) * r = b := by exact_mod_cast twice
        linarith
      exact congrArg _ half
    | gt =>
      have half : 1 / 2 < (r : ℝ) / b := by
        rw [div_lt_div_iff₀ two_pos bound]
        have twice : b < 2 * r := Nat.compare_eq_gt.mp order
        have twice' : (b : ℝ) < 2 * r := by exact_mod_cast twice
        linarith
      exact ⟨by linarith, by linarith⟩

theorem nearest_div (hu : IsRegular u) (hv : IsRegular v) (nonzero : valueOf v ≠ 0) :
    Nearest (UnpackedFloat.div Format.binary64 u v) (valueOf u / valueOf v) := by
  cases v with
  | infinity | notANumber => exact hv.elim
  | zero q => exact absurd (valueOf_zero q) nonzero
  | finite q n f positive' =>
    cases u with
    | infinity | notANumber => exact hu.elim
    | zero p =>
      rw [valueOf_zero, zero_div]
      exact nearest_zero _
    | finite p m e positive =>
      obtain ⟨t, target⟩ : ∃ t, min (e - f)
        (Format.binary64.targetExponent (totalExponent m e - totalExponent n f)) = t := ⟨_, rfl⟩
      obtain ⟨k, steps⟩ : ∃ k : ℕ, e - f = t + k := ⟨(e - f - t).toNat, by omega⟩
      have core : divCore Format.binary64 m e n f =
          (m * 2 ^ k / n, t, accuracyOfFraction (m * 2 ^ k % n) n) := by
        have shift : (e - f - t).toNat = k := by omega
        simp only [divCore, target, shift, Nat.shiftLeft_eq]
      have low : 2 ^ 52 ≤ m * 2 ^ k / n ∨ t ≤ -1074 := by
        by_cases lowest : t ≤ -1074
        · exact .inr lowest
        · left
          have bits : (Format.binary64.mantissaBits : Int) = 53 := rfl
          have least : Format.binary64.minExponent = -1074 := rfl
          have log : n.log2 + 1 + 52 ≤ m.log2 + k := by
            simp only [Format.targetExponent, totalExponent, bits, least] at target
            omega
          rw [Nat.le_div_iff_mul_le positive']
          calc 2 ^ 52 * n ≤ 2 ^ 52 * 2 ^ (n.log2 + 1) := Nat.mul_le_mul_left _ Nat.lt_log2_self.le
            _ = 2 ^ (n.log2 + 1 + 52) := by rw [← Nat.pow_add, Nat.add_comm]
            _ ≤ 2 ^ (m.log2 + k) := Nat.pow_le_pow_right (by decide) log
            _ = 2 ^ m.log2 * 2 ^ k := Nat.pow_add 2 _ _
            _ ≤ m * 2 ^ k := Nat.mul_le_mul_right _ (Nat.log2_self_le (by omega))
      have quotient : valueOf (.finite p m e positive) / valueOf (.finite q n f positive') =
          side (p / q) * (((m * 2 ^ k : ℕ) : ℝ) / n * 2 ^ t) := by
        have same : (2 : ℝ) ^ e = 2 ^ t * 2 ^ k * 2 ^ f := by
          rw [← zpow_natCast, ← zpow_add₀ (by norm_num), ← zpow_add₀ (by norm_num)]
          congr 1
          omega
        have unit_sides : side p / side q = side p * side q := by
          cases q <;> simp [side, div_neg]
        rw [valueOf_finite, valueOf_finite, side_div, ← unit_sides, same]
        have other : (n : ℝ) ≠ 0 := by exact_mod_cast positive'.ne'
        have sign_ne : side q ≠ 0 := by cases q <;> simp [side]
        push_cast
        field_simp
      rw [quotient]
      simp only [UnpackedFloat.div, core]
      exact roundWithAccuracy_nearest (p / q) (cuts_quotient _ positive') low

/-- A square root is cut to its whole part, and what is left of the number tells the rest. -/
theorem cuts_root (a : ℕ) :
    Cuts (√(a : ℝ)) (.ofMantissaAndAccuracy a.sqrt
      (if a - a.sqrt * a.sqrt = 0 then .exact
        else .inexact (if a - a.sqrt * a.sqrt ≤ a.sqrt then .lt else .gt))) := by
  have low : a.sqrt * a.sqrt ≤ a := Nat.sqrt_le a
  have high : a < (a.sqrt + 1) * (a.sqrt + 1) := Nat.lt_succ_sqrt a
  generalize a.sqrt = r at low high
  have root_nonneg : (0 : ℝ) ≤ r := Nat.cast_nonneg r
  split
  · next none =>
    have square : a = r * r := by omega
    have root : √(a : ℝ) = r := by
      rw [square, Nat.cast_mul, Real.sqrt_mul_self root_nonneg]
    exact root
  · next some =>
    split
    · next few =>
      have above : r * r < a := by omega
      have below : a ≤ r * r + r := by omega
      have above' : (r : ℝ) * r < a := by exact_mod_cast above
      have below' : (a : ℝ) ≤ r * r + r := by exact_mod_cast below
      refine ⟨(Real.lt_sqrt root_nonneg).mpr (by linarith), ?_⟩
      exact (Real.sqrt_lt' (by linarith)).mpr (by linarith)
    · next many =>
      have above : r * r + r + 1 ≤ a := by omega
      have above' : (r : ℝ) * r + r + 1 ≤ a := by exact_mod_cast above
      have high' : (a : ℝ) < (r + 1) * (r + 1) := by exact_mod_cast high
      refine ⟨(Real.lt_sqrt (by linarith)).mpr (by linarith), ?_⟩
      exact (Real.sqrt_lt' (by linarith)).mpr (by linarith)

theorem nearest_sqrt (hu : IsRegular u) (nonneg : 0 ≤ valueOf u) :
    Nearest (UnpackedFloat.sqrt Format.binary64 u) (√(valueOf u)) := by
  cases u with
  | infinity | notANumber => exact hu.elim
  | zero p =>
    rw [valueOf_zero, Real.sqrt_zero]
    exact nearest_zero p
  | finite p m e positive =>
    have size : (0 : ℝ) < m * 2 ^ e := by
      have some : (0 : ℝ) < m := by exact_mod_cast positive
      positivity
    cases p with
    | negative =>
      rw [valueOf_finite, side] at nonneg
      linarith
    | positive =>
      obtain ⟨t, target⟩ : ∃ t, min (e.ediv 2)
        (Format.binary64.targetExponent ((totalExponent m e + 1).ediv 2)) = t := ⟨_, rfl⟩
      have half : e.ediv 2 = e / 2 := rfl
      have halves : (totalExponent m e + 1).ediv 2 = (totalExponent m e + 1) / 2 := rfl
      obtain ⟨k, steps⟩ : ∃ k : ℕ, e = 2 * t + k := ⟨(e - 2 * t).toNat, by omega⟩
      have core : sqrtCore Format.binary64 m e = ((m * 2 ^ k).sqrt, t,
          if m * 2 ^ k - (m * 2 ^ k).sqrt * (m * 2 ^ k).sqrt = 0 then .exact
          else .inexact (if m * 2 ^ k - (m * 2 ^ k).sqrt * (m * 2 ^ k).sqrt ≤ (m * 2 ^ k).sqrt
            then .lt else .gt)) := by
        have shift : (e - 2 * t).toNat = k := by omega
        simp only [sqrtCore, target, shift, Nat.shiftLeft_eq]
      have low : 2 ^ 52 ≤ (m * 2 ^ k).sqrt ∨ t ≤ -1074 := by
        by_cases lowest : t ≤ -1074
        · exact .inr lowest
        · left
          have bits : (Format.binary64.mantissaBits : Int) = 53 := rfl
          have least : Format.binary64.minExponent = -1074 := rfl
          have log : 104 ≤ m.log2 + k := by
            rw [half, halves] at target
            simp only [Format.targetExponent, totalExponent, bits, least] at target
            omega
          rw [Nat.le_sqrt]
          calc 2 ^ 52 * 2 ^ 52 = 2 ^ 104 := by rw [← Nat.pow_add]
            _ ≤ 2 ^ (m.log2 + k) := Nat.pow_le_pow_right (by decide) log
            _ = 2 ^ m.log2 * 2 ^ k := Nat.pow_add 2 _ _
            _ ≤ m * 2 ^ k := Nat.mul_le_mul_right _ (Nat.log2_self_le (by omega))
      have root : √(valueOf (.finite .positive m e positive)) =
          side .positive * (√((m * 2 ^ k : ℕ) : ℝ) * 2 ^ t) := by
        have same : (m : ℝ) * 2 ^ e = (m * 2 ^ k : ℕ) * (2 ^ t * 2 ^ t) := by
          rw [steps, zpow_add₀ (by norm_num : (2 : ℝ) ≠ 0), two_mul,
            zpow_add₀ (by norm_num : (2 : ℝ) ≠ 0), zpow_natCast]
          push_cast
          ring
        rw [valueOf_finite, side, one_mul, one_mul, same, Real.sqrt_mul (Nat.cast_nonneg _),
          Real.sqrt_mul_self (by positivity)]
      rw [root]
      simp only [UnpackedFloat.sqrt, core]
      exact roundWithAccuracy_nearest .positive (cuts_root _) low

/-! ## §2 Doubles -/

variable {x y : Float}

theorem add_roundsTo (hx : x.isFinite = true) (hy : y.isFinite = true) :
    RoundsTo (x + y) (value x + value y) :=
  roundsTo_of_nearest rfl (nearest_add (isRegular_of_isFinite hx) (isRegular_of_isFinite hy))

theorem sub_roundsTo (hx : x.isFinite = true) (hy : y.isFinite = true) :
    RoundsTo (x - y) (value x - value y) :=
  roundsTo_of_nearest rfl (nearest_sub (isRegular_of_isFinite hx) (isRegular_of_isFinite hy))

theorem mul_roundsTo (hx : x.isFinite = true) (hy : y.isFinite = true) :
    RoundsTo (x * y) (value x * value y) :=
  roundsTo_of_nearest rfl (nearest_mul (isRegular_of_isFinite hx) (isRegular_of_isFinite hy))

theorem div_roundsTo (hx : x.isFinite = true) (hy : y.isFinite = true) (nonzero : value y ≠ 0) :
    RoundsTo (x / y) (value x / value y) :=
  roundsTo_of_nearest rfl
    (nearest_div (isRegular_of_isFinite hx) (isRegular_of_isFinite hy) nonzero)

theorem sqrt_roundsTo (hx : x.isFinite = true) (nonneg : 0 ≤ value x) :
    RoundsTo x.sqrt (√(value x)) :=
  roundsTo_of_nearest rfl (nearest_sqrt (isRegular_of_isFinite hx) nonneg)

/-- The sign is changed without rounding. -/
theorem neg_exact (hx : x.isFinite = true) : (-x).isFinite = true ∧ value (-x) = -value x := by
  have regular := isRegular_neg (isRegular_of_isFinite hx)
  have unpacked : (-x).toModel.unpack = x.toModel.unpack.neg := unpack_pack_of_isRegular regular
  refine ⟨?_, ?_⟩
  · change (-x).toModel.unpack.isFinite = true
    rw [unpacked]
    exact isFinite_of_isRegular regular
  · rw [value, unpacked, valueOf_neg, value]

/-! ## §3 Order -/

/-- Of two significands the one with the larger exponent makes the larger number, and that with the
larger significand where the exponents are the same. -/
theorem canonical_lt_iff {m n : Nat} {e f : Int} (h : Canonical m e) (h' : Canonical n f) :
    (m : ℝ) * 2 ^ e < n * 2 ^ f ↔ e < f ∨ e = f ∧ m < n := by
  have apart {m n : Nat} {e f : Int} (h : Canonical m e) (h' : Canonical n f) (lt : e < f) :
      (m : ℝ) * 2 ^ e < n * 2 ^ f := by
    have least := h.least
    have small : (m : ℝ) < 2 ^ 53 := by exact_mod_cast h.small
    have full : (2 : ℝ) ^ 52 ≤ n := by exact_mod_cast h'.full.resolve_right (by omega)
    have power : (2 : ℝ) * 2 ^ e ≤ 2 ^ f := by
      rw [mul_comm, ← zpow_add_one₀ (by norm_num : (2 : ℝ) ≠ 0)]
      exact zpow_le_zpow_right₀ (by norm_num) (by omega)
    calc (m : ℝ) * 2 ^ e < 2 ^ 53 * 2 ^ e := mul_lt_mul_of_pos_right small (by positivity)
      _ = 2 ^ 52 * (2 * 2 ^ e) := by ring
      _ ≤ n * 2 ^ f := mul_le_mul full power (by positivity) (by positivity)
  constructor
  · intro lt
    by_contra crossed
    rcases lt_trichotomy e f with below | rfl | above
    · exact crossed (.inl below)
    · have more : n ≤ m := not_lt.mp fun less => crossed (.inr ⟨rfl, less⟩)
      have more' : (n : ℝ) ≤ m := by exact_mod_cast more
      have power : (0 : ℝ) < 2 ^ e := by positivity
      exact absurd lt (not_lt.mpr (mul_le_mul_of_nonneg_right more' power.le))
    · exact absurd lt (apart h' h above).le.not_gt
  · rintro (lt | ⟨rfl, lt⟩)
    · exact apart h h' lt
    · have less : (m : ℝ) < n := by exact_mod_cast lt
      exact mul_lt_mul_of_pos_right less (by positivity)

/-- The ranks of finite doubles lie as the doubles do. -/
theorem rank_lt_iff (hu : IsRegular u) (hv : IsRegular v) :
    rank u < rank v ↔ valueOf u < valueOf v := by
  have size {m : Nat} {e : Int} (positive : 0 < m) : (0 : ℝ) < m * 2 ^ e := by
    have some : (0 : ℝ) < m := by exact_mod_cast positive
    positivity
  cases u with
  | infinity | notANumber => exact hu.elim
  | zero p =>
    cases v with
    | infinity | notANumber => exact hv.elim
    | zero q => simp [rank, valueOf_zero]
    | finite q n f positive =>
      have some := size (e := f) positive
      cases q <;> simp [rank, valueOf_zero, valueOf_finite, side, Prod.Lex.toLex_lt_toLex] <;>
        linarith
  | finite p m e positive =>
    have some := size (e := e) positive
    cases v with
    | infinity | notANumber => exact hv.elim
    | zero q =>
      cases p <;> simp [rank, valueOf_zero, valueOf_finite, side, Prod.Lex.toLex_lt_toLex] <;>
        linarith
    | finite q n f positive' =>
      have other := size (e := f) positive'
      cases p <;> cases q <;>
        simp only [rank, valueOf_finite, side, Prod.Lex.toLex_lt_toLex, one_mul, neg_one_mul,
          neg_lt_neg_iff, lt_irrefl, true_and, false_or]
      · rw [canonical_lt_iff hv hu]
        omega
      · exact ⟨fun _ => by linarith, fun _ => .inl (by decide)⟩
      · exact ⟨fun below => by omega, fun below => by linarith⟩
      · rw [canonical_lt_iff hu hv]
        omega

/-- **Comparing finite doubles is comparing their values.** -/
theorem float_lt_iff_value (hx : x.isFinite = true) (hy : y.isFinite = true) :
    x < y ↔ value x < value y := by
  rw [float_lt_iff (isNaN_of_isFinite hx) (isNaN_of_isFinite hy)]
  exact rank_lt_iff (isRegular_of_isFinite hx) (isRegular_of_isFinite hy)

theorem float_le_iff_value (hx : x.isFinite = true) (hy : y.isFinite = true) :
    x ≤ y ↔ value x ≤ value y := by
  rw [← float_not_lt (isNaN_of_isFinite hx) (isNaN_of_isFinite hy), float_lt_iff_value hy hx,
    not_lt]

theorem float_beq_iff_value (hx : x.isFinite = true) (hy : y.isFinite = true) :
    (x == y) = true ↔ value x = value y := by
  have hu := isRegular_of_isFinite hx
  have hv := isRegular_of_isFinite hy
  have ranks : rank x.toModel.unpack = rank y.toModel.unpack ↔
      ¬ rank x.toModel.unpack < rank y.toModel.unpack ∧
        ¬ rank y.toModel.unpack < rank x.toModel.unpack := by
    rw [eq_iff_le_not_lt, ← not_lt, and_comm]
  rw [float_beq_iff (isNaN_of_isFinite hx) (isNaN_of_isFinite hy), floatRank, floatRank, ranks,
    rank_lt_iff hu hv, rank_lt_iff hv hu, not_lt, not_lt, and_comm]
  exact le_antisymm_iff.symm

/-! ## §4 Bounds -/

variable {a b c d low high : ℝ}

theorem Within.add (hx : Within a b x) (hy : Within c d y) (first : IsBound low)
    (last : IsBound high) (ge : low ≤ a + c) (le : b + d ≤ high) : Within low high (x + y) :=
  (add_roundsTo hx.finite hy.finite).within first last (ge.trans (add_le_add hx.ge hy.ge))
    ((add_le_add hx.le hy.le).trans le)

theorem Within.sub (hx : Within a b x) (hy : Within c d y) (first : IsBound low)
    (last : IsBound high) (ge : low ≤ a - d) (le : b - c ≤ high) : Within low high (x - y) :=
  (sub_roundsTo hx.finite hy.finite).within first last (ge.trans (sub_le_sub hx.ge hy.le))
    ((sub_le_sub hx.le hy.ge).trans le)

/-- Products of numbers that are not negative. -/
theorem Within.mul (hx : Within a b x) (hy : Within c d y) (nonneg : 0 ≤ a) (nonneg' : 0 ≤ c)
    (first : IsBound low) (last : IsBound high) (ge : low ≤ a * c) (le : b * d ≤ high) :
    Within low high (x * y) := by
  have hx₀ := nonneg.trans hx.ge
  have hy₀ := nonneg'.trans hy.ge
  exact (mul_roundsTo hx.finite hy.finite).within first last
    (ge.trans (mul_le_mul hx.ge hy.ge nonneg' hx₀))
    ((mul_le_mul hx.le hy.le hy₀ (hx₀.trans hx.le)).trans le)

/-- Products of numbers on any side of zero. -/
theorem Within.mul_abs (hx : Within (-a) a x) (hy : Within (-b) b y) (bound : IsBound high)
    (le : a * b ≤ high) : Within (-high) high (x * y) := by
  have hx₁ := abs_le.mpr ⟨hx.ge, hx.le⟩
  have hy₁ := abs_le.mpr ⟨hy.ge, hy.le⟩
  have product : |value x * value y| ≤ high := by
    rw [abs_mul]
    exact (mul_le_mul hx₁ hy₁ (abs_nonneg _) ((abs_nonneg _).trans hx₁)).trans le
  obtain ⟨ge, le⟩ := abs_le.mp product
  exact (mul_roundsTo hx.finite hy.finite).within (isBound_neg bound) bound ge le

theorem Within.div (hx : Within a b x) (hy : Within c d y) (nonneg : 0 ≤ a) (positive : 0 < c)
    (first : IsBound low) (last : IsBound high) (ge : low ≤ a / d) (le : b / c ≤ high) :
    Within low high (x / y) := by
  have hx₀ := nonneg.trans hx.ge
  have hy₀ := positive.trans_le hy.ge
  exact (div_roundsTo hx.finite hy.finite hy₀.ne').within first last
    (ge.trans (div_le_div₀ hx₀ hx.ge hy₀ hy.le))
    ((div_le_div₀ (hx₀.trans hx.le) hx.le positive hy.ge).trans le)

theorem Within.sqrt (hx : Within a b x) (first : IsBound low) (last : IsBound high)
    (low_nonneg : 0 ≤ low) (high_nonneg : 0 ≤ high) (ge : low * low ≤ a) (le : b ≤ high * high) :
    Within low high x.sqrt := by
  have nonneg : 0 ≤ value x := (mul_nonneg low_nonneg low_nonneg).trans (ge.trans hx.ge)
  refine (sqrt_roundsTo hx.finite nonneg).within first last ?_ ?_
  · exact Real.le_sqrt_of_sq_le (by rw [sq]; exact ge.trans hx.ge)
  · exact Real.sqrt_le_iff.mpr ⟨high_nonneg, by rw [sq]; exact hx.le.trans le⟩

theorem Within.mono (hx : Within a b x) (ge : low ≤ a) (le : b ≤ high) : Within low high x :=
  ⟨hx.finite, ge.trans hx.ge, hx.le.trans le⟩

end BusinessCase
