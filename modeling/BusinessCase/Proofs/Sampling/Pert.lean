/-
BusinessCase.Proofs.Sampling.Pert — samples of accepted estimates.

An estimate of a metric without issues is never refused for the order of its
bounds. If it is narrow, it has shapes that gamma samples can be drawn for,
each of their rounds compares numbers, and the sample is a number. An estimate
that is not narrow is accepted too, but one of its shapes at least is not
finite, and a shape that is no number passes the checks of a gamma sample.

  §1 Samples — `yields_sample`.
  §2 Whole   — `Metric.sample_exact`, and an estimate that is not narrow.
-/
import BusinessCase.Proofs.Sampling.Drawing
import BusinessCase.Proofs.Sampling.Gamma
import BusinessCase.Proofs.Sampling.Shapes

namespace BusinessCase

open Scalar

/-! ## §1 Samples -/

namespace Distribution

variable {σ : Type} [UniformSource σ Float] {log cos : Float → Float} {d : Distribution Float}

theorem Ordered.le_and (ordered : d.Ordered) : (le d.low d.mode && le d.mode d.high) = true :=
  Bool.and_eq_true_iff.mpr ⟨decide_eq_true ordered.low_le, decide_eq_true ordered.le_high⟩

/-- The point between bounds that two gamma samples choose is a number. -/
theorem exists_between (low : d.low.isFinite = true) (span : Within 0 ceiling (d.high - d.low))
    {x y : Float} (hx : Within (2 ^ (-160 : ℤ)) 3645 x) (hy : Within (2 ^ (-160 : ℤ)) 3645 y) :
    ∃ r, @between Float (doublesWith log cos) d x y = .ok r ∧ r.isNaN = false := by
  have sum : Within (2 ^ (-159 : ℤ)) 7290 (x + y) :=
    hx.add hy (isBound_two_zpow (by decide) (by decide)) (isBound_ofNat (by decide)) (by norm_num)
      (by norm_num)
  have positive : 0 < value (x + y) := lt_of_lt_of_le (by positivity) sum.ge
  have part : 0 ≤ value x := le_trans (by positivity) hx.ge
  have part_le : value x ≤ value (x + y) := by
    have other : 0 ≤ value y := le_trans (by positivity) hy.ge
    exact (add_roundsTo hx.finite hy.finite).ge sum.finite (onGrid_value x) (by linarith)
  have share : Within 0 1 (x / (x + y)) :=
    (div_roundsTo hx.finite sum.finite positive.ne').within isBound_zero isBound_one
      (div_nonneg part positive.le) ((div_le_one positive).mpr part_le)
  have step : Within 0 ceiling (x / (x + y) * (d.high - d.low)) :=
    share.mul span le_rfl le_rfl isBound_zero (isBound_two_zpow (by decide) (by decide))
      (by rw [mul_zero]) (by rw [one_mul])
  exact ⟨_, bind_of_eq_ok (divide_eq positive.ne') _, (add_roundsTo low step.finite).number⟩

/-- **A sample of narrow bounds is a number**, as is one of bounds that are the same. -/
theorem yields_sample (isLog : IsLogarithm log) (isCos : IsCosine cos) (ordered : d.Ordered)
    (narrow : (d.low == d.high) = false → d.Narrow) :
    Sampler.Yields DrawsUnit (@sample σ Float _ (doublesWith log cos) d)
      fun x => x.isNaN = false := by
  cases isOpen : d.low == d.high with
  | true =>
    have drawn := @sample_of_eq σ Float _ (doublesWith log cos) d ordered.le_and isOpen
    rw [drawn]
    exact Sampler.yields_done (isNaN_of_isFinite ordered.finite.1)
  | false =>
    have drawn := @sample_of_open σ Float _ (doublesWith log cos) d ordered.le_and isOpen
    obtain ⟨α, β, found, -, within⟩ := shapes_exact ordered isOpen
    obtain ⟨first, second⟩ := within (narrow isOpen)
    rw [drawn]
    refine Sampler.yields_step found ?_
    refine Sampler.yields_andThen (Sampler.yields_gamma isLog isCos first) fun x hx => ?_
    refine Sampler.yields_andThen (Sampler.yields_gamma isLog isCos second) fun y hy => ?_
    obtain ⟨r, value, number⟩ :=
      exists_between ordered.finite.1 (ordered.span_within (narrow isOpen)) hx hy
    exact Sampler.yields_checked value number

end Distribution

/-! ## §2 Whole -/

theorem Within.one_le_five {x : Float} (within : Within 1 5 x) : 1 ≤ x ∧ x ≤ 5 := by
  have one : value 1 = 1 := value_one
  have five : value 5 = 5 := value_nat (n := 5) (by decide)
  exact ⟨(float_le_iff_value rfl within.finite).mpr (one ▸ within.ge),
    (float_le_iff_value within.finite rfl).mpr (five ▸ within.le)⟩

/-- **An estimate of a metric without issues** is never refused for the order of its bounds. If its
outer bounds differ it has two shapes, which are finite exactly for narrow bounds; then they lie
between one and five, and the rounds of both gamma samples compare numbers. Out of numbers from
zero to below one the sample is a number, if it is not that these run out. -/
theorem Metric.sample_exact {σ : Type} [UniformSource σ Float] {log cos : Float → Float}
    (isLog : IsLogarithm log) (isCos : IsCosine cos) {m : Metric} {d : Distribution Float}
    (given : m.distribution = some d) (accepted : m.issues = []) :
    (∀ (s : σ) b, (@Distribution.sample σ Float _ (doublesWith log cos) d s).1 ≠
      .error (.boundsOutOfOrder b)) ∧
    ((d.low == d.high) = false →
      ∃ α β, @Distribution.shapes Float (doublesWith log cos) d = .ok (α, β) ∧
        (α.isFinite = true ∧ β.isFinite = true ↔ d.Narrow) ∧
        (d.Narrow → (1 ≤ α ∧ α ≤ 5 ∧ 1 ≤ β ∧ β ≤ 5) ∧
          Sampler.Settled log cos α ∧ Sampler.Settled log cos β)) ∧
    (((d.low == d.high) = false → d.Narrow) → ∀ s : σ, DrawsUnit s →
      (@Distribution.sample σ Float _ (doublesWith log cos) d s).1 = .error .exhausted ∨
        ∃ x, (@Distribution.sample σ Float _ (doublesWith log cos) d s).1 = .ok x ∧
          x.isNaN = false) := by
  have ordered : d.Ordered := (Metric.issues_eq_nil_iff.mp accepted).2 d given
  refine ⟨fun s b refused => ?_, fun isOpen => ?_, fun narrow s good => ?_⟩
  · have drawing := @Distribution.drawing_sample σ Float _ (doublesWith log cos) d ordered.le_and
    exact drawing.only s _ refused
  · obtain ⟨α, β, found, finite_iff, within⟩ := Distribution.shapes_exact ordered isOpen
    refine ⟨α, β, found, finite_iff, fun narrow => ?_⟩
    obtain ⟨first, second⟩ := within narrow
    obtain ⟨first_ge, first_le⟩ := first.one_le_five
    obtain ⟨second_ge, second_le⟩ := second.one_le_five
    exact ⟨⟨first_ge, first_le, second_ge, second_le⟩, Sampler.settled isLog isCos first,
      Sampler.settled isLog isCos second⟩
  · exact (Distribution.yields_sample isLog isCos ordered narrow s good).2

/-- A metric that is nothing but an estimate. -/
def Distribution.alone (d : Distribution Float) : Metric where
  id := "price"
  name := "Price"
  unit := some "$"
  value := none
  distribution := some d
  formula := none
  categoryId := .null
  description := .null

theorem isLogarithm_level : IsLogarithm fun _ => 0.0 where
  finite _ _ := rfl
  near _ _ := by
    have zero : value 0.0 = 0 := valueOf_zero .positive
    rw [zero, zero_sub, abs_neg]

theorem isCosine_level : IsCosine fun _ => 1.0 where
  within _ := by
    have one : (1.0 : Float) = nat 1 := by decide +kernel
    rw [one]
    exact ⟨rfl, by rw [value_one]; norm_num, value_one.le⟩

theorem drawsUnit_sixNumbers : DrawsUnit sixNumbers := by
  refine drawsUnit_iff.mpr (drawsOnly_listed ?_)
  have zero : IsUnit 0 := ⟨by decide +kernel, by decide +kernel⟩
  have half : IsUnit 0.5 := ⟨by decide +kernel, by decide +kernel⟩
  simp [sixNumbers, zero, half]

/-- An estimate of one to three, with a mode of two, has a sample. -/
theorem Metric.sample_exact_sixNumbers :
    (IsLogarithm fun _ => 0.0) ∧ (IsCosine fun _ => 1.0) ∧ DrawsUnit sixNumbers ∧
      (Distribution.alone ⟨1, 2, 3⟩).issues = [] ∧ Distribution.Narrow ⟨1, 2, 3⟩ ∧
      ∃ x, (@Distribution.sample (Listed Float) Float _ levelDoubles ⟨1, 2, 3⟩ sixNumbers).1 =
        .ok x ∧ x.isNaN = false := by
  have accepted : (Distribution.alone ⟨1, 2, 3⟩).issues = [] := by decide +kernel
  have narrow : Distribution.Narrow ⟨1, 2, 3⟩ := ⟨by decide +kernel, by decide +kernel⟩
  obtain ⟨-, -, drawn⟩ := @Metric.sample_exact (Listed Float) _ (fun _ => 0.0) (fun _ => 1.0)
    isLogarithm_level isCosine_level (Distribution.alone ⟨1, 2, 3⟩) ⟨1, 2, 3⟩ rfl accepted
  refine ⟨isLogarithm_level, isCosine_level, drawsUnit_sixNumbers, accepted, narrow, ?_⟩
  rcases drawn (fun _ => narrow) sixNumbers drawsUnit_sixNumbers with none | number
  · rw [sample_sixNumbers] at none
    cases none
  · exact number

/-- Bounds that are each far from zero, and have a mode of zero, are accepted as well. Their shapes
are no numbers, and neither check of a gamma sample refuses them. -/
theorem Metric.shapes_wide : ∃ m : Metric, ∃ d : Distribution Float, m.distribution = some d ∧
    m.issues = [] ∧ (d.low == d.high) = false ∧
      ∃ α β, d.shapes = .ok (α, β) ∧ α.isNaN = true ∧ β.isNaN = true ∧
        le α (nat 0) = false ∧ lt α (nat 1) = false := by
  refine ⟨Distribution.alone ⟨-1e308, 0, 1e308⟩, ⟨-1e308, 0, 1e308⟩, rfl, by decide +kernel,
    by decide +kernel, nan, nan, by decide +kernel, ?_⟩
  decide +kernel

end BusinessCase
