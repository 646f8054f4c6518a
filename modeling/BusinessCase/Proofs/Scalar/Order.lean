/-
BusinessCase.Proofs.Scalar.Order — the order of doubles.

A double that is a number has a rank on a line, and comparing two doubles is
comparing their ranks. So the order of numbers is total and transitive, which
it is not once what is no number takes part.

  §1 Ranks — `rank`, for doubles taken apart.
  §2 Order — `float_lt_iff`, `float_le_iff`, `float_beq_iff`.
-/
import Mathlib.Data.Prod.Lex
import Mathlib.Order.Basic

namespace BusinessCase

open Float.Model

/-! ## §1 Ranks -/

/-- The place of a number: its half of the line, then its exponent, then its significand. -/
def rank : UnpackedFloat → Int ×ₗ Int ×ₗ Int
  | .infinity .negative => toLex (-2, toLex (0, 0))
  | .finite .negative significand exponent _ => toLex (-1, toLex (-exponent, -significand))
  | .zero _ | .notANumber => toLex (0, toLex (0, 0))
  | .finite .positive significand exponent _ => toLex (1, toLex (exponent, significand))
  | .infinity .positive => toLex (2, toLex (0, 0))

theorem compare_pair (c d x y : Int) :
    compare (toLex (c, x)) (toLex (d, y)) = (compare c d).then (compare x y) := rfl

theorem compare_neg (x y : Int) : compare (-x) (-y) = (compare x y).swap := by
  rw [Int.compare_swap, Int.compare_eq_ite_lt, Int.compare_eq_ite_lt]
  simp only [Int.neg_lt_neg_iff]

theorem compare_natCast (m n : Nat) : compare (m : Int) (n : Int) = compare m n := by
  rw [Int.compare_eq_ite_lt, Nat.compare_eq_ite_lt]
  simp only [Int.ofNat_lt]

/-- **Numbers are compared by their ranks.** -/
theorem compare_eq_some {a b : UnpackedFloat} (ha : a.isNaN = false) (hb : b.isNaN = false) :
    a.compare b = some (compare (rank a) (rank b)) := by
  cases a with
  | notANumber => cases ha
  | infinity s =>
    cases b with
    | notANumber => cases hb
    | infinity t => cases s <;> cases t <;> rfl
    | zero t => cases s <;> rfl
    | finite t => cases s <;> cases t <;> rfl
  | zero s =>
    cases b with
    | notANumber => cases hb
    | infinity t => cases t <;> rfl
    | zero t => rfl
    | finite t => cases t <;> rfl
  | finite s m e positive =>
    cases b with
    | notANumber => cases hb
    | infinity t => cases s <;> cases t <;> rfl
    | zero t => cases s <;> rfl
    | finite t n f positive' =>
      cases s with
      | negative =>
        cases t with
        | negative =>
          have fields : compare (toLex (-e, -(m : Int))) (toLex (-f, -(n : Int))) =
              ((compare e f).then (compare m n)).swap := by
            rw [compare_pair, compare_neg, compare_neg, compare_natCast, Ordering.swap_then]
          exact congrArg some fields.symm
        | positive => rfl
      | positive =>
        cases t with
        | negative => rfl
        | positive =>
          have fields : compare (toLex (e, (m : Int))) (toLex (f, (n : Int))) =
              (compare e f).then (compare m n) := by
            rw [compare_pair, compare_natCast]
          exact congrArg some fields.symm

/-! ## §2 Order -/

/-- The rank of a double. -/
def floatRank (x : Float) : Int ×ₗ Int ×ₗ Int := rank x.toModel.unpack

variable {x y : Float}

theorem float_lt_iff (hx : x.isNaN = false) (hy : y.isNaN = false) :
    x < y ↔ floatRank x < floatRank y := by
  have same : x < y ↔ x.toModel.unpack.compare y.toModel.unpack = some .lt := by
    exact decide_eq_true_iff.trans beq_iff_eq
  rw [same, compare_eq_some hx hy, Option.some.injEq, compare_lt_iff_lt]
  rfl

theorem float_le_iff (hx : x.isNaN = false) (hy : y.isNaN = false) :
    x ≤ y ↔ floatRank x ≤ floatRank y := by
  have same : x ≤ y ↔ (x.toModel.unpack.compare y.toModel.unpack).any (·.isLE) = true :=
    decide_eq_true_iff
  rw [same, compare_eq_some hx hy, Option.any_some, Ordering.isLE_iff_ne_gt,
    compare_gt_iff_gt, not_lt]
  rfl

theorem float_beq_iff (hx : x.isNaN = false) (hy : y.isNaN = false) :
    (x == y) = true ↔ floatRank x = floatRank y := by
  have compared : (x == y) = (x.toModel.unpack.compare y.toModel.unpack == some .eq) := rfl
  rw [compared, compare_eq_some hx hy, beq_iff_eq, Option.some.injEq, compare_eq_iff_eq]
  rfl

theorem isNaN_of_isFinite (h : x.isFinite = true) : x.isNaN = false := by
  have apart : ∀ u : UnpackedFloat, u.isFinite = true → u.isNaN = false := by
    intro u finite
    cases u with
    | notANumber => cases finite
    | infinity => rfl
    | zero => rfl
    | finite => rfl
  exact apart _ h

/-- Of two numbers one is at most the other. -/
theorem float_not_lt (hx : x.isNaN = false) (hy : y.isNaN = false) : ¬ y < x ↔ x ≤ y := by
  rw [float_lt_iff hy hx, float_le_iff hx hy, not_lt]

theorem float_le_trans {z : Float} (hx : x.isNaN = false) (hy : y.isNaN = false)
    (hz : z.isNaN = false) (first : x ≤ y) (second : y ≤ z) : x ≤ z := by
  rw [float_le_iff hx hy] at first
  rw [float_le_iff hy hz] at second
  exact (float_le_iff hx hz).mpr (first.trans second)

end BusinessCase
