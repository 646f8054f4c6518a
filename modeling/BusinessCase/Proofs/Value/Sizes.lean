/-
BusinessCase.Proofs.Value.Sizes — whole numbers that are not too large.

A whole number is of use if it has a double, and can be shown if it has not
more than 4300 digits. The second follows from the first, and holds of every
number that is read from a text or cut off from a double.

  §1 Doubles     — `Value.fits`, and that what fits can be shown.
  §2 Fields      — what fits consists of parts that fit.
  §3 Whole parts — what is cut off from a double.
  §4 Texts       — what is read from a text.
-/
import BusinessCase.Proofs.Table
import BusinessCase.Value.Shown
import BusinessCase.Value.Whole
import Mathlib.Data.List.TakeWhile
import Mathlib.Tactic.Ring

namespace BusinessCase

/-! ## §1 Doubles -/

namespace Value

mutual

/-- Does every whole number that the value holds have a double? -/
def fits : Value → Bool
  | int n => (ofInt? n).isSome
  | list items => allFit items
  | object fields => fieldsFit fields
  | null | bool _ | float _ | text _ => true

def allFit : List Value → Bool
  | [] => true
  | item :: rest => fits item && allFit rest

def fieldsFit : List (String × Value) → Bool
  | [] => true
  | (_, value) :: rest => fits value && fieldsFit rest

end

/-- A whole number of at least 2 ^ 1026 is rounded to infinity. -/
theorem isInf_nearest {n : Nat} (large : 1026 ≤ Nat.log2 n) (negative : Bool) :
    (Decimal.nearest negative n 1).isInf := by
  have positive : n ≠ 0 := by
    rintro rfl
    exact absurd large (by decide)
  have guess : (973 : Int) ≤ (Nat.log2 n : Int) - (Nat.log2 1 : Int) - 53 := by
    have one : Nat.log2 1 = 0 := by decide
    omega
  have infinite : (Decimal.ofPattern negative Decimal.infinityPattern).isInf := by
    cases negative <;> rfl
  unfold Decimal.nearest
  dsimp only
  rw [if_neg positive, if_pos]
  · exact infinite
  · split <;> split <;> omega

theorem ten_pow_le_shownBound {k : Nat} (few : k ≤ Decimal.maxIntegerDigits) :
    10 ^ k ≤ shownBound := by
  -- The power itself must not be worked out, so its exponent is given a name.
  revert few
  unfold Decimal.maxIntegerDigits shownBound
  generalize 4300 = m
  exact Nat.pow_le_pow_right (by decide)

theorem two_pow_le_shownBound {k : Nat} (few : k ≤ Decimal.maxIntegerDigits) :
    2 ^ k ≤ shownBound :=
  Nat.le_trans (Nat.pow_le_pow_left (by decide) k) (ten_pow_le_shownBound few)

/-- What has more digits than are written out has more than 1026 bits. -/
theorem log2_of_unshown {n : Nat} (unshown : shownBound ≤ n) : 1026 ≤ Nat.log2 n := by
  have bits (k : Nat) (few : k ≤ Decimal.maxIntegerDigits) : k ≤ Nat.log2 n := by
    have bound : 2 ^ k ≤ n := Nat.le_trans (two_pow_le_shownBound few) unshown
    have positive : n ≠ 0 := Nat.ne_of_gt (Nat.lt_of_lt_of_le (Nat.two_pow_pos k) bound)
    exact (Nat.le_log2 positive).mpr bound
  exact bits 1026 (by decide)

theorem isShown_int_iff {n : Int} : (int n).isShown ↔ n.natAbs < shownBound := by
  rw [isShown, decide_eq_true_iff]

/-- **What has a double can be shown.** -/
theorem lt_shownBound_of_ofInt? {n : Int} (fits : (ofInt? n).isSome) : n.natAbs < shownBound := by
  by_contra unshown
  have infinite := isInf_nearest (log2_of_unshown (Nat.not_lt.mp unshown)) (decide (n < 0))
  simp [ofInt?, Decimal.nearestInt, infinite] at fits

mutual

theorem isShown_of_fits : ∀ {v : Value}, v.fits → v.isShown
  | int n, h => by
    rw [fits] at h
    exact isShown_int_iff.mpr (lt_shownBound_of_ofInt? h)
  | list items, h => allShown_of_allFit h
  | object fields, h => fieldsShown_of_fieldsFit h
  | null, _ | bool _, _ | float _, _ | text _, _ => rfl

theorem allShown_of_allFit : ∀ {items : List Value}, allFit items → allShown items
  | [], _ => rfl
  | item :: rest, h => by
    obtain ⟨first, others⟩ := Bool.and_eq_true_iff.mp h
    exact Bool.and_eq_true_iff.mpr ⟨isShown_of_fits first, allShown_of_allFit others⟩

theorem fieldsShown_of_fieldsFit :
    ∀ {fields : List (String × Value)}, fieldsFit fields → fieldsShown fields
  | [], _ => rfl
  | (_, value) :: rest, h => by
    obtain ⟨first, others⟩ := Bool.and_eq_true_iff.mp h
    exact Bool.and_eq_true_iff.mpr ⟨isShown_of_fits first, fieldsShown_of_fieldsFit others⟩

end

/-! ## §2 Fields -/

theorem allFit_iff {items : List Value} : allFit items ↔ ∀ item ∈ items, item.fits := by
  induction items with
  | nil => simp [allFit]
  | cons item rest ih => simp [allFit, ih]

theorem fieldsFit_iff {fields : List (String × Value)} :
    fieldsFit fields ↔ ∀ field ∈ fields, field.2.fits := by
  induction fields with
  | nil => simp [fieldsFit]
  | cons field rest ih => simp [fieldsFit, ih]

theorem field?_nil (name : String) : field? [] name = none := rfl

theorem fits_fieldOrNull {fields : List (String × Value)} (h : fieldsFit fields) (name : String) :
    (fieldOrNull fields name).fits := by
  rw [fieldOrNull]
  cases found : field? fields name with
  | none => rfl
  | some value => exact fieldsFit_iff.mp h (name, value) (Table.mem_of_find? found)

theorem fits_firstField {fields : List (String × Value)} (h : fieldsFit fields)
    (names : List String) : (firstField fields names).fits := by
  rw [firstField]
  cases found : names.findSome? (field? fields) with
  | none => rfl
  | some value =>
    obtain ⟨name, -, here⟩ := List.exists_of_findSome?_eq_some found
    exact fieldsFit_iff.mp h (name, value) (Table.mem_of_find? here)

/-! ## §3 Whole parts -/

/-- A double has a significand of 53 bits and an exponent of at most 971. -/
theorem decode_finite {x : Float} {d : Decimal.Dyadic} (h : Decimal.decode x = .finite d) :
    d.significand < 2 ^ 53 ∧ d.exponent ≤ 971 := by
  have fraction : x.toBits.toNat % Decimal.hiddenBit < 2 ^ 52 := Nat.mod_lt _ (by decide)
  have hidden : Decimal.hiddenBit = 2 ^ 52 := rfl
  have biased : x.toBits.toNat / Decimal.hiddenBit % 2048 < 2048 := Nat.mod_lt _ (by decide)
  unfold Decimal.decode at h
  dsimp only at h
  split at h
  · split at h <;> cases h
  · split at h
    · cases h
      dsimp only
      exact ⟨by omega, by omega⟩
    · cases h
      dsimp only
      exact ⟨by omega, by omega⟩

/-- The whole part of the absolute value is that of the significand times a power of two. -/
theorem ratio_le (d : Decimal.Dyadic) :
    d.ratio.1 / d.ratio.2 ≤ d.significand * 2 ^ d.exponent.toNat := by
  unfold Decimal.Dyadic.ratio
  split
  · exact Nat.le_trans (Nat.div_le_self _ _) (Nat.le_mul_of_pos_right _ (Nat.two_pow_pos _))
  · next nonnegative =>
    have same : d.exponent.natAbs = d.exponent.toNat := by omega
    rw [Nat.div_one, same]
    exact Nat.le_refl _

theorem ratio_lt {d : Decimal.Dyadic} {k : Nat} (significand : d.significand < 2 ^ 53)
    (exponent : d.exponent ≤ k) : d.ratio.1 / d.ratio.2 < 2 ^ (53 + k) := by
  have power : 2 ^ d.exponent.toNat ≤ 2 ^ k := Nat.pow_le_pow_right (by decide) (by omega)
  calc d.ratio.1 / d.ratio.2 ≤ d.significand * 2 ^ d.exponent.toNat := ratio_le d
    _ < 2 ^ 53 * 2 ^ k := Nat.mul_lt_mul_of_lt_of_le significand power (Nat.two_pow_pos _)
    _ = 2 ^ (53 + k) := (Nat.pow_add 2 53 k).symm

theorem natAbs_signed (negative : Bool) (n : Nat) :
    (if negative then -(n : Int) else n).natAbs = n := by
  cases negative <;> simp

/-- The whole part of a double can be shown. -/
theorem lt_shownBound_of_wholePart {x : Float} {n : Int} (h : wholePart x = .ok n) :
    n.natAbs < shownBound := by
  rw [wholePart] at h
  split at h
  · cases h
  · cases h
  · next d decoded =>
    obtain ⟨significand, exponent⟩ := decode_finite decoded
    have whole : n.natAbs = d.ratio.1 / d.ratio.2 := by
      rw [← Except.ok.inj h, ← Int.natCast_div]
      exact natAbs_signed d.negative _
    have below (k : Nat) (low : d.exponent ≤ k) (few : 53 + k ≤ Decimal.maxIntegerDigits) :
        d.ratio.1 / d.ratio.2 < shownBound :=
      Nat.lt_of_lt_of_le (ratio_lt significand low) (two_pow_le_shownBound few)
    exact whole ▸ below 971 exponent (by decide)

end Value

/-! ## §4 Texts -/

namespace Decimal

/-- The digits of a run with underscores are what is left of it. -/
theorem isDigit_of_mem_joinDigits {after : Bool} {cs digits : List Char}
    (run : ∀ c ∈ cs, c.isDigit || c = '_')
    (joined : joinDigits Char.isDigit after cs = some digits) : ∀ c ∈ digits, c.isDigit := by
  fun_induction joinDigits Char.isDigit after cs generalizing digits with
  | case1 => 
    cases joined
    simp
  | case2 after next rest counts ih =>
    obtain ⟨others, later, rfl⟩ := Option.map_eq_some_iff.mp joined
    have plain : ∀ c ∈ rest, c.isDigit || c = '_' := fun c member =>
      run c (List.mem_cons_of_mem _ (List.mem_cons_of_mem _ member))
    exact List.forall_mem_cons.mpr ⟨(Bool.and_eq_true_iff.mp counts).2, ih plain later⟩
  | case3 => cases joined
  | case4 => cases joined
  | case5 after c rest _ other ih =>
    obtain ⟨others, later, rfl⟩ := Option.map_eq_some_iff.mp joined
    obtain ⟨first, plain⟩ := List.forall_mem_cons.mp run
    have isDigit : c.isDigit := by simpa [other] using first
    exact List.forall_mem_cons.mpr ⟨isDigit, ih plain later⟩

theorem digitsFrom_lt {digits : List Char} (plain : ∀ c ∈ digits, c.isDigit) (n : Nat) :
    digits.foldl (fun n c => 10 * n + (c.toNat - 48)) n < (n + 1) * 10 ^ digits.length := by
  induction digits generalizing n with
  | nil => simp
  | cons c rest ih =>
    obtain ⟨first, others⟩ := List.forall_mem_cons.mp plain
    have small : c.toNat - 48 ≤ 9 := by
      have bounds := (Bool.and_eq_true_iff.mp first).2
      have last : c.toNat ≤ 57 := by simpa [UInt32.le_iff_toNat_le] using bounds
      omega
    have step : 10 * n + (c.toNat - 48) + 1 ≤ (n + 1) * 10 := by omega
    calc (c :: rest).foldl (fun n c => 10 * n + (c.toNat - 48)) n
        < (10 * n + (c.toNat - 48) + 1) * 10 ^ rest.length := ih others _
      _ ≤ (n + 1) * 10 * 10 ^ rest.length := Nat.mul_le_mul_right _ step
      _ = (n + 1) * 10 ^ (c :: rest).length := by rw [List.length_cons, Nat.pow_succ]; ring

theorem digitsValue_lt {digits : List Char} (plain : ∀ c ∈ digits, c.isDigit) :
    digitsValue digits < 10 ^ digits.length := by
  simpa [digitsValue] using digitsFrom_lt plain 0

/-- What is read from a text can be shown. -/
theorem lt_shownBound_of_readInt {s : String} {n : Int} (h : readInt s = .ok n) :
    n.natAbs < Value.shownBound := by
  unfold readInt at h
  dsimp only at h
  split at h
  · next digits joined =>
    split at h
    · cases h
    · split at h
      · cases h
      · next few =>
        split at h
        · cases h
        · have run : ∀ c ∈ (splitSign (plainSpelling s)).2.takeWhile fun c => c.isDigit || c = '_',
              c.isDigit || c = '_' := by
            intro c member
            simpa using List.mem_takeWhile_imp member
          have value : n.natAbs = digitsValue digits := by
            rw [← Except.ok.inj h]
            exact Value.natAbs_signed _ _
          calc n.natAbs = digitsValue digits := value
            _ < 10 ^ digits.length := digitsValue_lt (isDigit_of_mem_joinDigits run joined)
            _ ≤ Value.shownBound := Value.ten_pow_le_shownBound (Nat.not_lt.mp few)
  · cases h

end Decimal

end BusinessCase
