/-
BusinessCase.Proofs.Sampling.Shapes — the shapes of accepted estimates.

The bounds of an estimate without issues are finite and in order. That does not
make their span finite, nor four times the distance of two of them: only where
both of these multiples are finite are the shapes finite as well, and then they
lie between one and five.

  §1 Distances — `Distribution.Narrow`, distances of bounds in order.
  §2 Span      — the span of an estimate whose outer bounds differ.
  §3 Shapes    — `shapes_exact`.
-/
import BusinessCase.Proofs.Scalar.Kinds
import BusinessCase.Proofs.Validation.Workbook
import BusinessCase.Sampling.Pert

namespace BusinessCase

open Scalar

/-! ## §1 Distances -/

/-- Four times the distance of the mode from each of the two bounds is finite. -/
structure Distribution.Narrow (d : Distribution Float) : Prop where
  below : (nat 4 * (d.mode - d.low)).isFinite = true
  above : (nat 4 * (d.high - d.mode)).isFinite = true

variable {x y : Float}

/-- A distance that is finite four times is a quarter of that, without rounding. -/
theorem distance_of_isFinite (hx : x.isFinite = true) (hy : y.isFinite = true)
    (le : value x ≤ value y) (finite : (nat 4 * (y - x)).isFinite = true) :
    (y - x).isFinite = true ∧ 0 ≤ value (y - x) ∧
      value (nat 4 * (y - x)) = 4 * value (y - x) ∧ value y - value x < ceiling / 2 := by
  have single : (y - x).isFinite = true := by
    rw [← Bool.not_eq_false]
    intro infinite
    exact Bool.false_ne_true ((isFinite_mul _ infinite).symm.trans finite)
  have rounds := sub_roundsTo hy hx
  have four := nat_within (n := 4) (by decide)
  have same : value (nat 4) = 4 := value_nat (by decide)
  have scaled : value (nat 4 * (y - x)) = 4 * value (y - x) := by
    have product := mul_roundsTo four.finite single
    rw [same] at product
    refine product.eq finite ?_
    have grid := onGrid_two_pow_mul 2 (onGrid_value (y - x))
    norm_num at grid
    exact grid
  refine ⟨single, rounds.ge single onGrid_zero (by linarith), scaled, ?_⟩
  by_contra far
  have half : ceiling / 2 = 2 ^ (1022 : ℤ) := by
    unfold ceiling
    rw [div_eq_iff two_ne_zero, ← zpow_add_one₀ (by norm_num : (2 : ℝ) ≠ 0)]
    rfl
  have beyond : ceiling / 2 ≤ value (y - x) := by
    refine rounds.ge single ?_ (not_lt.mp far)
    rw [half]
    exact onGrid_two_zpow (by decide)
  have below := (le_abs_self _).trans_lt (abs_value_lt (nat 4 * (y - x)))
  linarith

/-! ## §2 Span -/

namespace Distribution

variable {d : Distribution Float}

/-- The values of the bounds of an estimate without issues. -/
theorem Ordered.values (ordered : d.Ordered) :
    value d.low ≤ value d.mode ∧ value d.mode ≤ value d.high := by
  obtain ⟨low, mode, high⟩ := ordered.finite
  exact ⟨(float_le_iff_value low mode).mp ordered.low_le,
    (float_le_iff_value mode high).mp ordered.le_high⟩

/-- Where the outer bounds differ, their span is not rounded to zero. -/
theorem Ordered.span_pos (ordered : d.Ordered) (isOpen : (d.low == d.high) = false)
    (finite : (d.high - d.low).isFinite = true) : 0 < value (d.high - d.low) := by
  obtain ⟨low, -, high⟩ := ordered.finite
  have differ : value d.low ≠ value d.high := by
    rw [Ne, ← float_beq_iff_value low high, isOpen]
    exact Bool.false_ne_true
  have lt : value d.low < value d.high :=
    lt_of_le_of_ne (ordered.values.1.trans ordered.values.2) differ
  have apart := onGrid_apart (onGrid_value _) (onGrid_value _) lt
  have least : (0 : ℝ) < 2 ^ (-1074 : ℤ) := by positivity
  exact least.trans_le ((sub_roundsTo high low).ge finite (onGrid_two_zpow (by decide)) apart)

theorem Ordered.span_ne_zero (ordered : d.Ordered) (isOpen : (d.low == d.high) = false) :
    (d.high - d.low == nat 0) = false := by
  cases finite : (d.high - d.low).isFinite with
  | false => exact ExactSum.beq_zero_of_not_isFinite finite
  | true => exact beq_zero_of_value_ne (ordered.span_pos isOpen finite).ne'

/-- The span of narrow bounds is finite, and can still be doubled. -/
theorem Ordered.span_within (ordered : d.Ordered) (narrow : d.Narrow) :
    Within 0 ceiling (d.high - d.low) := by
  obtain ⟨low, mode, high⟩ := ordered.finite
  obtain ⟨low_le, le_high⟩ := ordered.values
  obtain ⟨-, -, -, below⟩ := distance_of_isFinite low mode low_le narrow.below
  obtain ⟨-, -, -, above⟩ := distance_of_isFinite mode high le_high narrow.above
  exact (sub_roundsTo high low).within isBound_zero
    (isBound_two_zpow (by decide) (by decide)) (by linarith) (by linarith)

/-! ## §3 Shapes -/

/-- One and four times a part of a span, divided by the span, lie between one and five. -/
theorem shape_within {a span : Float} (finite : span.isFinite = true) (positive : 0 < value span)
    (single : (nat 4 * a).isFinite = true) (nonneg : 0 ≤ value a)
    (scaled : value (nat 4 * a) = 4 * value a) (le : value a ≤ value span) :
    Within 1 5 (nat 1 + nat 4 * a / span) := by
  have one := nat_within (n := 1) (by decide)
  have quotient : Within 0 4 (nat 4 * a / span) := by
    refine (div_roundsTo single finite positive.ne').within isBound_zero
      (isBound_ofNat (by decide)) ?_ ?_
    · rw [scaled]
      exact div_nonneg (by linarith) positive.le
    · rw [scaled, div_le_iff₀ positive]
      linarith
  exact one.add quotient isBound_one (isBound_ofNat (by decide)) (by norm_num) (by norm_num)

/-- A distance that is too large leaves a shape that is not finite. -/
theorem isFinite_shape {a span : Float} (infinite : (nat 4 * a).isFinite = false) :
    (nat 1 + nat 4 * a / span).isFinite = false :=
  ExactSum.isFinite_add (.inr (isFinite_div infinite span))

/-- **The shapes are finite exactly for narrow bounds**, and then they lie between one and five. -/
theorem shapes_exact (ordered : d.Ordered) (isOpen : (d.low == d.high) = false) :
    ∃ α β, d.shapes = .ok (α, β) ∧ (α.isFinite = true ∧ β.isFinite = true ↔ d.Narrow) ∧
      (d.Narrow → Within 1 5 α ∧ Within 1 5 β) := by
  have nonzero := ordered.span_ne_zero isOpen
  have found : d.shapes = .ok (nat 1 + nat 4 * (d.mode - d.low) / (d.high - d.low),
      nat 1 + nat 4 * (d.high - d.mode) / (d.high - d.low)) := by
    have divided (x : Float) : divide x (d.high - d.low) = .ok (x / (d.high - d.low)) := by
      have other : eq (d.high - d.low) (nat 0) = false := nonzero
      rw [divide, other]
      rfl
    rw [shapes, divided, divided]
    rfl
  have within (narrow : d.Narrow) :
      Within 1 5 (nat 1 + nat 4 * (d.mode - d.low) / (d.high - d.low)) ∧
        Within 1 5 (nat 1 + nat 4 * (d.high - d.mode) / (d.high - d.low)) := by
    obtain ⟨low, mode, high⟩ := ordered.finite
    obtain ⟨low_le, le_high⟩ := ordered.values
    obtain ⟨first, first_nonneg, first_scaled, -⟩ :=
      distance_of_isFinite low mode low_le narrow.below
    obtain ⟨second, second_nonneg, second_scaled, -⟩ :=
      distance_of_isFinite mode high le_high narrow.above
    have span := (ordered.span_within narrow).finite
    have first_le := value_sub_le mode low high low le_high le_rfl first span
    have second_le := value_sub_le high mode high low le_rfl low_le second span
    have positive := ordered.span_pos isOpen span
    exact ⟨shape_within span positive narrow.below first_nonneg first_scaled first_le,
      shape_within span positive narrow.above second_nonneg second_scaled second_le⟩
  refine ⟨_, _, found, ⟨fun finite => ?_, fun narrow => ?_⟩, within⟩
  · refine ⟨?_, ?_⟩ <;> rw [← Bool.not_eq_false] <;> intro infinite
    · exact Bool.false_ne_true ((isFinite_shape infinite).symm.trans finite.1)
    · exact Bool.false_ne_true ((isFinite_shape infinite).symm.trans finite.2)
  · exact ⟨(within narrow).1.finite, (within narrow).2.finite⟩

end Distribution

end BusinessCase
