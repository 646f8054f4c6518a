/-
BusinessCase.Proofs.Sampling.Gamma — gamma samples of shapes from one to five.

All that is worked out in a round stays between bounds that are far from the
ends of the doubles: the deviate, because a uniform number above zero is not
too small; the candidate, because one that is above zero is not too small
either. So every comparison of a round is one of two numbers, no step of it
fails, and what is accepted is finite and above zero.

The logarithm and the cosine are any that are roughly right.

  §1 Functions — `IsLogarithm` and `IsCosine`.
  §2 Steps     — checked steps that do not fail.
  §3 Deviates  — `normalDeviate_within`.
  §4 Rounds    — `Comparable`, and what a round accepts.
  §5 Samples   — `Sampler.Settled`, `yields_gamma`.
-/
import BusinessCase.Proofs.Sampling.Outcomes
import BusinessCase.Proofs.Scalar.Powers
import BusinessCase.Proofs.Steps
import BusinessCase.Sampling.Gamma

namespace BusinessCase

open Scalar

variable {log cos : Float → Float} {x : Float}

/-! ## §1 Functions -/

/-- Finite numbers above zero have finite logarithms, and these are off by no more than their own
size. -/
structure IsLogarithm (log : Float → Float) : Prop where
  finite : ∀ {x}, x.isFinite = true → 0 < value x → (log x).isFinite = true
  near : ∀ {x}, x.isFinite = true → 0 < value x →
    |value (log x) - Real.log (value x)| ≤ |Real.log (value x)|

/-- Finite numbers have cosines, and these lie between minus one and one. -/
structure IsCosine (cos : Float → Float) : Prop where
  within : ∀ {x}, x.isFinite = true → Within (-1) 1 (cos x)

/-- A number between two powers of two has a logarithm that is no larger than twice their
exponent. -/
theorem IsLogarithm.within (isLog : IsLogarithm log) {k : ℕ}
    (hx : Within (2 ^ (-k : ℤ)) (2 ^ (k : ℤ)) x) : Within (-(2 * k)) (2 * k) (log x) := by
  have positive : 0 < value x := lt_of_lt_of_le (by positivity) hx.ge
  have low := Real.log_le_log (by positivity) hx.ge
  have high := Real.log_le_log positive hx.le
  rw [Real.log_zpow, Int.cast_neg, Int.cast_natCast, neg_mul] at low
  rw [Real.log_zpow, Int.cast_natCast] at high
  have unit : (k : ℝ) * Real.log 2 ≤ k :=
    mul_le_of_le_one_right (Nat.cast_nonneg k) (Real.log_two_lt_d9.le.trans (by norm_num))
  have size : |Real.log (value x)| ≤ k := abs_le.mpr ⟨by linarith, by linarith⟩
  have near := abs_le.mp ((isLog.near hx.finite positive).trans size)
  have size := abs_le.mp size
  exact ⟨isLog.finite hx.finite positive, by linarith, by linarith⟩

theorem IsLogarithm.nonpos (isLog : IsLogarithm log) (finite : x.isFinite = true)
    (positive : 0 < value x) (le : value x ≤ 1) : value (log x) ≤ 0 := by
  have below := Real.log_nonpos positive.le le
  have near := isLog.near finite positive
  rw [abs_of_nonpos below] at near
  have above := (abs_le.mp near).2
  linarith

/-! ## §2 Steps -/

theorem logarithm_eq (finite : x.isFinite = true) (positive : 0 < value x) :
    @logarithm Float (doublesWith log cos) x = .ok (log x) := by
  have above : le x (nat 0) = false :=
    decide_eq_false (by rw [float_le_iff_value finite rfl, value_zero]; exact positive.not_ge)
  exact if_neg (ne_true_of_eq_false above)

theorem root_eq (finite : x.isFinite = true) (nonneg : 0 ≤ value x) :
    @root Float (doublesWith log cos) x = .ok x.sqrt := by
  have above : lt x (nat 0) = false :=
    decide_eq_false (by rw [float_lt_iff_value finite rfl, value_zero]; exact nonneg.not_gt)
  exact if_neg (ne_true_of_eq_false above)

theorem cosine_eq (finite : x.isFinite = true) :
    @cosine Float (doublesWith log cos) x = .ok (cos x) :=
  if_neg (ne_true_of_eq_false (isInf_of_isFinite finite))

theorem divide_eq {y : Float} (nonzero : value y ≠ 0) :
    @divide Float (doublesWith log cos) x y = .ok (x / y) :=
  if_neg (ne_true_of_eq_false (beq_zero_of_value_ne nonzero))

theorem powerNat_eq {n : ℕ} (finite : (powNat x n).isFinite = true) :
    @powerNat Float (doublesWith log cos) x n = .ok (powNat x n) :=
  if_neg fun both =>
    Bool.false_ne_true ((isInf_of_isFinite finite).symm.trans (Bool.and_eq_true_iff.mp both).1)

/-! ## §3 Deviates -/

namespace Sampler

variable {u : Float}

/-- The angle of a deviate is finite. -/
theorem isFinite_angle (isUnit : IsUnit u) : (nat 2 * pi * u).isFinite = true := by
  obtain ⟨finite, ge, lt⟩ := isUnit_iff.mp isUnit
  have half_turn : Within (0 : ℕ) (4 : ℕ) (pi : Float) :=
    within_of_le (by decide) (by decide) rfl (by decide +kernel) (by decide +kernel)
  have turn : Within 0 8 (nat 2 * pi : Float) :=
    (nat_within (by decide)).mul half_turn (by norm_num) (by norm_num) isBound_zero
      (isBound_ofNat (by decide)) (by norm_num) (by norm_num)
  exact (turn.mul ⟨finite, ge, lt.le⟩ le_rfl le_rfl isBound_zero (isBound_ofNat (by decide))
    (by norm_num) (by norm_num : (8 : ℝ) * 1 ≤ 8)).finite

theorem normalDeviate_within (isLog : IsLogarithm log) (isCos : IsCosine cos) {u₁ u₂ : Float}
    (first : Within (2 ^ (-53 : ℤ)) 1 u₁) (second : IsUnit u₂) :
    ∃ x, @normalDeviate Float (doublesWith log cos) u₁ u₂ = .ok x ∧ Within (-15) 15 x := by
  have positive : 0 < value u₁ := lt_of_lt_of_le (by positivity) first.ge
  have bounds := isLog.within (k := 53) (first.mono le_rfl (by norm_num))
  have nonpos := isLog.nonpos first.finite positive first.le
  obtain ⟨minus_finite, minus⟩ := neg_exact (x := nat 2) rfl
  rw [value_nat (by decide)] at minus
  have square : Within 0 212 (-(nat 2) * log u₁) := by
    have ge := bounds.ge
    norm_num at minus ge
    refine (mul_roundsTo minus_finite bounds.finite).within isBound_zero
      (isBound_ofNat (by decide)) ?_ ?_ <;> rw [minus] <;> linarith
  have distance : Within 0 15 (-(nat 2) * log u₁).sqrt :=
    square.sqrt isBound_zero (isBound_ofNat (by decide)) le_rfl (by norm_num) (by norm_num)
      (by norm_num)
  have direction := isCos.within (isFinite_angle second)
  refine ⟨(-(nat 2) * log u₁).sqrt * cos (nat 2 * pi * u₂), ?_, ?_⟩
  · exact (bind_of_eq_ok (logarithm_eq first.finite positive) _).trans
      ((bind_of_eq_ok (root_eq square.finite square.ge) _).trans
        (bind_of_eq_ok (cosine_eq (isFinite_angle second)) _))
  · exact (distance.mono (by norm_num) le_rfl).mul_abs direction (isBound_ofNat (by decide))
      (by norm_num)

theorem yields_standardNormal {σ : Type} [UniformSource σ Float] (isLog : IsLogarithm log)
    (isCos : IsCosine cos) :
    Yields DrawsUnit (@standardNormal σ Float _ (doublesWith log cos)) (Within (-15) 15) :=
  yields_andThen (yields_openUniform log cos) fun _ first =>
    yields_andThen yields_uniform fun _ second => by
      obtain ⟨x, deviate, within⟩ := normalDeviate_within isLog isCos first second
      exact yields_checked deviate within

/-! ## §4 Rounds -/

/-- What the quick test compares the level with. -/
def quickBound (x : Float) : Float := nat 1 - decimal 331 4 * powNat x 4

/-- What the slow test compares the level's logarithm with. -/
def slowBound (log : Float → Float) (d x v : Float) : Float :=
  decimal 5 1 * x * x + d * (nat 1 - v + log v)

/-- In a round with the deviate `x` and the level `u` no step fails, and all comparisons are of
numbers: that of the candidate's root with zero, and for a root above zero the two tests. -/
structure Comparable (log cos : Float → Float) (d c x u : Float) : Prop where
  root : (nat 1 + c * x).isNaN = false
  tests : le (nat 1 + c * x) (nat 0) = false →
    let v := (nat 1 + c * x) * (nat 1 + c * x) * (nat 1 + c * x)
    @accepts Float (doublesWith log cos) d x v u =
        .ok (lt u (quickBound x) || lt (log u) (slowBound log d x v)) ∧
      u.isNaN = false ∧ (quickBound x).isNaN = false ∧
      (log u).isNaN = false ∧ (slowBound log d x v).isNaN = false

variable {d c v : Float}

/-- The root of a candidate is a number, and not too small if it is above zero. -/
theorem root_within (hc : Within 0 (1 / 2) c) (hx : Within (-15) 15 x) :
    (nat 1 + c * x).isNaN = false ∧
      (le (nat 1 + c * x) (nat 0) = false → Within (2 ^ (-53 : ℤ)) 9 (nat 1 + c * x)) := by
  have product : Within (-8) 8 (c * x) :=
    (hc.mono (by norm_num) le_rfl).mul_abs hx (isBound_ofNat (by decide)) (by norm_num)
  have rounds := add_roundsTo (x := nat 1) rfl product.finite
  rw [value_one] at rounds
  have sum : Within (-7) 9 (nat 1 + c * x) :=
    rounds.within (isBound_neg (isBound_ofNat (by decide))) (isBound_ofNat (by decide))
      (by linarith [product.ge]) (by linarith [product.le])
  refine ⟨rounds.number, fun above => ?_⟩
  have finite := sum.finite
  have positive : 0 < value (nat 1 + c * x) := by
    have beyond := of_decide_eq_false above
    rwa [float_le_iff_value finite rfl, value_zero, not_le] at beyond
  have lt : -1 < value (c * x) := by
    by_contra low
    exact absurd (rounds.le finite onGrid_zero (by linarith)) (not_le.mpr positive)
  have gap := onGrid_gap (onGrid_value _) lt
  exact ⟨finite, rounds.ge finite (onGrid_two_zpow (by decide)) (by linarith), sum.le⟩

/-- The candidate is the cube of its root. -/
theorem cube_within {r : Float} (hr : Within (2 ^ (-53 : ℤ)) 9 r) :
    Within (2 ^ (-159 : ℤ)) 729 (r * r * r) := by
  have square : Within (2 ^ (-106 : ℤ)) 81 (r * r) :=
    hr.mul hr (by positivity) (by positivity) (isBound_two_zpow (by decide) (by decide))
      (isBound_ofNat (by decide)) (by norm_num) (by norm_num)
  exact square.mul hr (by positivity) (by positivity) (isBound_two_zpow (by decide) (by decide))
    (isBound_ofNat (by decide)) (by norm_num) (by norm_num)

/-- The power of the quick test is finite. -/
theorem isFinite_fourth (hx : Within (-15) 15 x) : (powNat x 4 : Float).isFinite = true := by
  have size : |value x| ≤ 2 ^ 4 := abs_le.mpr ⟨by linarith [hx.ge], by linarith [hx.le]⟩
  exact isFinite_powNat hx.finite size (by decide)

/-- The slow test compares finite numbers. -/
theorem slow_test (isLog : IsLogarithm log) (hd : Within (1 / 2) 5 d) (hx : Within (-15) 15 x)
    (hv : Within (2 ^ (-159 : ℤ)) 729 v) :
    (slowBound log d x v).isFinite = true := by
  have half : Within (0 : ℕ) (1 : ℕ) (decimal 5 1) :=
    within_of_le (by decide) (by decide) (by decide +kernel) (by decide +kernel) (by decide +kernel)
  have unit : Within (-1) 1 (decimal 5 1) := half.mono (by norm_num) (by norm_num)
  have size : Within (-318) 318 (log v) := by
    have bounds := isLog.within (k := 159) (hv.mono le_rfl (by norm_num))
    norm_num at bounds
    exact bounds
  have spread : Within (-225) 225 (decimal 5 1 * x * x) :=
    (unit.mul_abs hx (isBound_ofNat (n := 15) (by decide)) (by norm_num)).mul_abs hx
      (isBound_ofNat (by decide)) (by norm_num)
  have rest : Within (-728) 1 (nat 1 - v) :=
    (nat_within (by decide)).sub (hv.mono (by positivity) le_rfl)
      (isBound_neg (isBound_ofNat (by decide))) isBound_one (by norm_num) (by norm_num)
  have inner : Within (-1046) 1046 (nat 1 - v + log v) :=
    rest.add size (isBound_neg (isBound_ofNat (by decide))) (isBound_ofNat (by decide))
      (by norm_num) (by norm_num)
  have outer : Within (-5230) 5230 (d * (nat 1 - v + log v)) :=
    (hd.mono (by norm_num) le_rfl).mul_abs inner (isBound_ofNat (by decide)) (by norm_num)
  have sum : Within (-5455) 5455 (decimal 5 1 * x * x + d * (nat 1 - v + log v)) :=
    spread.add outer (isBound_neg (isBound_ofNat (by decide))) (isBound_ofNat (by decide))
      (by norm_num) (by norm_num)
  exact sum.finite

variable {σ : Type} [UniformSource σ Float]

/-- A candidate is accepted by one test or by the other; no step fails. -/
theorem accepts_eq (hx : Within (-15) 15 x) (hv : Within (2 ^ (-159 : ℤ)) 729 v)
    (hu : Within (2 ^ (-53 : ℤ)) 1 u) : @accepts Float (doublesWith log cos) d x v u =
      .ok (lt u (quickBound x) || lt (log u) (slowBound log d x v)) := by
  have level : 0 < value u := lt_of_lt_of_le (by positivity) hu.ge
  have size : 0 < value v := lt_of_lt_of_le (by positivity) hv.ge
  refine (bind_of_eq_ok (powerNat_eq (isFinite_fourth hx)) _).trans ?_
  split
  · next quick =>
    have passed : lt u (quickBound x) = true := quick
    rw [passed]
    rfl
  · next quick =>
    have failed : lt u (quickBound x) = false := eq_false_of_ne_true quick
    rw [failed]
    exact (bind_of_eq_ok (logarithm_eq hu.finite level) _).trans
      (bind_of_eq_ok (logarithm_eq hv.finite size) _)

/-- **No comparison of a round is with what is no number.** -/
theorem comparable (isLog : IsLogarithm log) (hd : Within (1 / 2) 5 d) (hc : Within 0 (1 / 2) c)
    (hx : Within (-15) 15 x) (hu : Within (2 ^ (-53 : ℤ)) 1 u) : Comparable log cos d c x u where
  root := (root_within hc hx).1
  tests above := by
    have hv := cube_within ((root_within hc hx).2 above)
    have positive : 0 < value u := lt_of_lt_of_le (by positivity) hu.ge
    have quick : (quickBound x).isNaN = false :=
      isNaN_sub rfl (mul_roundsTo (by decide +kernel) (isFinite_fourth hx)).number
    exact ⟨accepts_eq hx hv hu, isNaN_of_isFinite hu.finite, quick,
      isNaN_of_isFinite (isLog.finite hu.finite positive),
      isNaN_of_isFinite (slow_test isLog hd hx hv)⟩

theorem yields_gammaRound (isLog : IsLogarithm log) (isCos : IsCosine cos)
    (hd : Within (1 / 2) 5 d) (hc : Within 0 (1 / 2) c) :
    Yields DrawsUnit (@gammaRound σ Float _ (doublesWith log cos) d c)
      fun found => ∀ x ∈ found, Within (2 ^ (-160 : ℤ)) 3645 x := by
  refine yields_andThen (yields_standardNormal isLog isCos) fun x hx => ?_
  dsimp only
  split
  · exact yields_done fun _ none => by cases none
  · next above =>
    have hv := cube_within ((root_within hc hx).2 (eq_false_of_ne_true above))
    refine yields_andThen (yields_openUniform log cos) fun u hu => ?_
    refine yields_step (accepts_eq hx hv hu) (yields_done ?_)
    split
    · rintro _ ⟨⟩
      exact hd.mul hv (by norm_num) (by positivity) (isBound_two_zpow (by decide) (by decide))
        (isBound_ofNat (by decide)) (by norm_num) (by norm_num)
    · exact fun _ none => by cases none

/-! ## §5 Samples -/

/-- The constants of a gamma sample can be worked out. -/
structure Constants (log cos : Float → Float) (shape d c : Float) : Prop where
  shift : d = shape - nat 1 / nat 3
  scale : ∃ spread, @Scalar.root Float (doublesWith log cos) (nat 9 * d) = .ok spread ∧
    @divide Float (doublesWith log cos) (nat 1) spread = .ok c

/-- A gamma sample of the shape is refused by no check, its constants can be worked out, and every
round with uniform numbers compares numbers. -/
structure Settled (log cos : Float → Float) (shape : Float) : Prop where
  positive : le shape (nat 0) = false
  large : lt shape (nat 1) = false
  rounds : ∃ d c, Constants log cos shape d c ∧
    ∀ u₁ u₂ u₃, IsUnit u₁ → IsUnit u₂ → IsUnit u₃ →
      ∃ x, @normalDeviate Float (doublesWith log cos) (nat 1 - u₁) u₂ = .ok x ∧
        Comparable log cos d c x (nat 1 - u₃)

variable {shape : Float}

theorem exists_constants (log cos : Float → Float) (within : Within 1 5 shape) :
    ∃ d c, Constants log cos shape d c ∧ Within (1 / 2) 5 d ∧ Within 0 (1 / 2) c := by
  have third : Within 0 (1 / 2) (nat 1 / nat 3) :=
    (nat_within (n := 1) (by decide)).div (nat_within (n := 3) (by decide)) (by norm_num)
      (by norm_num) isBound_zero isBound_half (by norm_num) (by norm_num)
  have shift : Within (1 / 2) 5 (shape - nat 1 / nat 3) :=
    within.sub third isBound_half (isBound_ofNat (by decide)) (by norm_num) (by norm_num)
  have square : Within 4 45 (nat 9 * (shape - nat 1 / nat 3)) :=
    (nat_within (n := 9) (by decide)).mul shift (by norm_num) (by norm_num)
      (isBound_ofNat (by decide)) (isBound_ofNat (by decide)) (by norm_num) (by norm_num)
  have spread : Within 2 7 (nat 9 * (shape - nat 1 / nat 3)).sqrt :=
    square.sqrt (isBound_ofNat (by decide)) (isBound_ofNat (by decide)) (by norm_num) (by norm_num)
      (by norm_num) (by norm_num)
  have scale : Within 0 (1 / 2) (nat 1 / (nat 9 * (shape - nat 1 / nat 3)).sqrt) :=
    (nat_within (n := 1) (by decide)).div spread (by norm_num) (by norm_num) isBound_zero
      isBound_half (by norm_num) (by norm_num)
  refine ⟨_, _, ⟨rfl, _, root_eq square.finite ?_, divide_eq ?_⟩, shift, scale⟩
  · linarith [square.ge]
  · linarith [spread.ge]

theorem bounds_of_within (within : Within 1 5 shape) :
    le shape (nat 0) = false ∧ lt shape (nat 1) = false := by
  refine ⟨decide_eq_false ?_, decide_eq_false ?_⟩
  · rw [float_le_iff_value within.finite rfl, value_zero]
    linarith [within.ge]
  · rw [float_lt_iff_value within.finite rfl, value_one]
    linarith [within.ge]

/-- **Shapes from one to five have gamma samples whose rounds compare numbers.** -/
theorem settled (isLog : IsLogarithm log) (isCos : IsCosine cos) (within : Within 1 5 shape) :
    Settled log cos shape := by
  obtain ⟨d, c, constants, hd, hc⟩ := exists_constants log cos within
  refine ⟨(bounds_of_within within).1, (bounds_of_within within).2, d, c, constants, ?_⟩
  intro u₁ u₂ u₃ first second third
  obtain ⟨x, deviate, hx⟩ := normalDeviate_within isLog isCos (openUnit_within first) second
  exact ⟨x, deviate, comparable isLog hd hc hx (openUnit_within third)⟩

/-- **A gamma sample of such a shape is finite and above zero.** -/
theorem yields_gamma (isLog : IsLogarithm log) (isCos : IsCosine cos) (within : Within 1 5 shape) :
    Yields DrawsUnit (@gamma σ Float _ (doublesWith log cos) shape)
      (Within (2 ^ (-160 : ℤ)) 3645) := by
  obtain ⟨positive, large⟩ := bounds_of_within within
  obtain ⟨d, c, ⟨rfl, spread, isRoot, isQuotient⟩, hd, hc⟩ :=
    exists_constants log cos within
  have drawn : @gamma σ Float _ (doublesWith log cos) shape =
      @gammaLarge σ Float _ (doublesWith log cos) shape :=
    (if_neg (ne_true_of_eq_false positive)).trans (if_neg (ne_true_of_eq_false large))
  rw [drawn]
  exact yields_step isRoot (yields_step isQuotient
    (yields_untilAccepted _ (yields_gammaRound isLog isCos hd hc)))

end Sampler

end BusinessCase
