/-
BusinessCase.Proofs.Sampling.Interior — samples over the reals lie between their bounds.

Without rounding, a uniform number taken from one is above zero and so has a
logarithm, which is not above zero and so has a root when its sign is turned.
A candidate of a round is tested only if it is above zero. So no step of a
gamma sample is outside the domain of its function, and a gamma sample is above
zero. The share of one such number in the sum of two is above zero and below
one, which puts a sample strictly between its bounds.

  §1 Numbers — `Exact.LiesIn`, numbers of the reals that lie in a set.
  §2 Rounds  — `normalDeviate_num`, `accepts_num`, and what a round accepts.
  §3 Gamma   — `yields_gamma`, for all shapes above zero.
  §4 Bounds  — `yields_interior`, and `Distribution.sample_interior`.
-/
import BusinessCase.Proofs.Sampling.Drawing
import BusinessCase.Proofs.Sampling.Outcomes
import BusinessCase.Proofs.Scalar.Exact

namespace BusinessCase

open Sampler

namespace Exact

/-! ## §1 Numbers -/

/-- A number of the set. -/
def LiesIn (r : Set ℝ) (z : Exact ℝ) : Prop := ∃ x ∈ r, z = num x

variable {σ : Type} [UniformSource σ (Exact ℝ)]

/-- Every number that the source will ever give is from zero to below one. -/
abbrev DrawsShares (s : σ) : Prop := DrawsOnly (LiesIn (Set.Ico 0 1)) s

theorem yields_openUniform :
    Yields DrawsShares (openUniform : Sampler σ (SamplingError (Exact ℝ)) (Exact ℝ))
      (LiesIn (Set.Ioc 0 1)) := by
  refine yields_andThen yields_uniform ?_
  intro z given
  obtain ⟨x, ⟨ge, lt⟩, rfl⟩ := given
  refine yields_done ⟨1 - x, ⟨by linarith, by linarith⟩, ?_⟩
  rw [nat_eq, Nat.cast_one, num_sub]

/-! ## §2 Rounds -/

variable {c d u v x shape : ℝ}

/-- The logarithm of a number from above zero to one leaves a root. -/
theorem normalDeviate_num (hu : u ∈ Set.Ioc 0 1) (v : ℝ) : normalDeviate (num u) (num v) =
    .ok (num (Real.sqrt (-((2 : ℕ) : ℝ) * Real.log u) * Real.cos ((2 : ℕ) * Real.pi * v))) := by
  have size : 0 ≤ -((2 : ℕ) : ℝ) * Real.log u := by
    have nonpos := Real.log_nonpos hu.1.le hu.2
    push_cast
    linarith
  rw [normalDeviate, bind_of_eq_ok (logarithm_num hu.1)]
  exact (bind_of_eq_ok (root_num size) _).trans (bind_of_eq_ok cosine_num _)

/-- A test of a candidate above zero, at a level above zero, has an answer. -/
theorem accepts_num (hv : 0 < v) (hu : 0 < u) (d x : ℝ) :
    ∃ answer, accepts (num d) (num x) (num v) (num u) = .ok answer := by
  unfold accepts
  rw [bind_of_eq_ok (powerNat_num x 4)]
  split
  · exact ⟨true, rfl⟩
  · rw [bind_of_eq_ok (logarithm_num hu), bind_of_eq_ok (logarithm_num hv)]
    exact ⟨_, rfl⟩

theorem yields_standardNormal :
    Yields DrawsShares (standardNormal : Sampler σ (SamplingError (Exact ℝ)) (Exact ℝ))
      (LiesIn Set.univ) := by
  refine yields_andThen yields_openUniform ?_
  intro z given
  obtain ⟨u, hu, rfl⟩ := given
  refine yields_andThen yields_uniform ?_
  intro z given
  obtain ⟨v, -, rfl⟩ := given
  exact yields_checked (normalDeviate_num hu v) ⟨_, trivial, rfl⟩

/-- **A round accepts only numbers above zero**, and all its steps have answers. -/
theorem yields_gammaRound (hd : 0 < d) (c : ℝ) :
    Yields DrawsShares
      (gammaRound (num d) (num c) : Sampler σ (SamplingError (Exact ℝ)) (Option (Exact ℝ)))
      fun found => ∀ z ∈ found, LiesIn (Set.Ioi 0) z := by
  refine yields_andThen yields_standardNormal ?_
  intro z given
  obtain ⟨x, -, rfl⟩ := given
  dsimp only
  split
  · exact yields_done fun _ none => by cases none
  · next above =>
    have root : (Scalar.nat 1 : Exact ℝ) + num c * num x = num (1 + c * x) := by
      rw [nat_eq, Nat.cast_one, num_mul, num_add]
    rw [root] at above ⊢
    have positive : 0 < 1 + c * x := by
      rw [nat_eq, Nat.cast_zero, le_num, decide_eq_true_iff, not_le] at above
      exact above
    have cube : 0 < (1 + c * x) * (1 + c * x) * (1 + c * x) := by positivity
    refine yields_andThen yields_openUniform ?_
    intro z given
    obtain ⟨u, hu, rfl⟩ := given
    obtain ⟨answer, tested⟩ := accepts_num cube hu.1 d x
    refine yields_step tested (yields_done ?_)
    cases answer
    · exact fun _ none => by cases none
    · rintro _ ⟨⟩
      exact ⟨_, mul_pos hd cube, rfl⟩

/-! ## §3 Gamma -/

theorem shift_num (shape : ℝ) :
    (num shape : Exact ℝ) - Scalar.nat 1 / Scalar.nat 3 = num (shape - 1 / 3) := by
  rw [nat_eq, nat_eq, num_div (by norm_num), num_sub]
  norm_num

/-- The scale of the candidates can be worked out. -/
theorem exists_scale (hd : 0 < d) : ∃ spread c,
    Scalar.root ((Scalar.nat 9 : Exact ℝ) * num d) = .ok spread ∧
      Scalar.divide (Scalar.nat 1) spread = .ok (num c) := by
  have nine : (Scalar.nat 9 : Exact ℝ) * num d = num (9 * d) := by
    rw [nat_eq, num_mul]
    norm_num
  have spread : 0 < Real.sqrt (9 * d) := Real.sqrt_pos.mpr (by linarith)
  refine ⟨num (Real.sqrt (9 * d)), 1 / Real.sqrt (9 * d), ?_, ?_⟩
  · rw [nine]
    exact root_num (by linarith)
  · rw [nat_eq, Nat.cast_one, divide_num spread.ne']

theorem yields_gammaLarge (large : 1 ≤ shape) :
    Yields DrawsShares
      (gammaLarge (num shape) : Sampler σ (SamplingError (Exact ℝ)) (Exact ℝ))
      (LiesIn (Set.Ioi 0)) := by
  have hd : 0 < shape - 1 / 3 := by linarith
  obtain ⟨spread, c, isRoot, isQuotient⟩ := exists_scale hd
  rw [gammaLarge, shift_num]
  exact yields_step isRoot (yields_step isQuotient
    (yields_untilAccepted _ (yields_gammaRound hd c)))

/-- The factor for a shape below one is a number above zero. -/
theorem boost_num (positive : 0 < shape) (hu : 0 < u) :
    ∃ factor ∈ Set.Ioi (0 : ℝ), boost (num shape) (num u) = .ok (some (num factor)) := by
  have exponent : Scalar.divide (Scalar.nat 1 : Exact ℝ) (num shape) = .ok (num (1 / shape)) := by
    rw [nat_eq, Nat.cast_one, divide_num positive.ne']
  refine ⟨u ^ (1 / shape), Real.rpow_pos_of_pos hu _, ?_⟩
  rw [boost, bind_of_eq_ok exponent, powerOf_num hu]
  rfl

/-- **A gamma sample is above zero**, and all its steps have answers. -/
theorem yields_gamma (positive : 0 < shape) :
    Yields DrawsShares (gamma (num shape) : Sampler σ (SamplingError (Exact ℝ)) (Exact ℝ))
      (LiesIn (Set.Ioi 0)) := by
  have allowed : Scalar.le (num shape) (Scalar.nat 0 : Exact ℝ) = false := by simp [positive]
  have compared : Scalar.lt (num shape) (Scalar.nat 1 : Exact ℝ) = decide (shape < 1) := by simp
  rw [gamma, allowed, compared]
  simp only [Bool.false_eq_true, if_false, decide_eq_true_iff]
  split
  · have above : (num shape : Exact ℝ) + Scalar.nat 1 = num (shape + 1) := by
      rw [nat_eq, Nat.cast_one, num_add]
    rw [above]
    refine yields_andThen yields_openUniform ?_
    intro z given
    obtain ⟨u, hu, rfl⟩ := given
    obtain ⟨factor, hf, boosted⟩ := boost_num positive hu.1
    refine yields_step boosted ?_
    refine yields_andThen (yields_gammaLarge (by linarith)) ?_
    intro z given
    obtain ⟨x, hx, rfl⟩ := given
    exact yields_checked rfl ⟨x * factor, Set.mem_Ioi.mpr (mul_pos hx hf), rfl⟩
  · exact yields_gammaLarge (by linarith)

/-! ## §4 Bounds -/

section Bounds

variable {low mode high y : ℝ}

/-- The shapes of bounds with a span are at least one. -/
theorem shapes_num (low_le : low ≤ mode) (le_high : mode ≤ high) (lt : low < high) :
    ∃ a b, Distribution.shapes ⟨num low, num mode, num high⟩ = .ok (num a, num b) ∧
      1 ≤ a ∧ 1 ≤ b := by
  have span : 0 < high - low := by linarith
  have four (z : ℝ) : Scalar.divide ((Scalar.nat 4 : Exact ℝ) * num z) (num (high - low)) =
      .ok (num (4 * z / (high - low))) := by
    rw [nat_eq, num_mul, divide_num span.ne']
    norm_num
  have one (z : ℝ) : (Scalar.nat 1 : Exact ℝ) + num z = num (1 + z) := by
    rw [nat_eq, Nat.cast_one, num_add]
  have below : 0 ≤ 4 * (mode - low) / (high - low) :=
    div_nonneg (by linarith) span.le
  have above : 0 ≤ 4 * (high - mode) / (high - low) :=
    div_nonneg (by linarith) span.le
  refine ⟨_, _, ?_, le_add_of_nonneg_right below, le_add_of_nonneg_right above⟩
  refine (bind_of_eq_ok (four (mode - low)) _).trans
    ((bind_of_eq_ok (four (high - mode)) _).trans ?_)
  rw [one, one]

/-- The share of a number above zero divides the span. -/
theorem between_num (hx : 0 < x) (hy : 0 < y) (lt : low < high) (mode : ℝ) :
    ∃ z ∈ Set.Ioo low high,
      Distribution.between ⟨num low, num mode, num high⟩ (num x) (num y) = .ok (num z) := by
  have sum : 0 < x + y := add_pos hx hy
  have positive : 0 < x / (x + y) := div_pos hx sum
  have below : x / (x + y) < 1 := (div_lt_one sum).mpr (by linarith)
  refine ⟨low + x / (x + y) * (high - low), ⟨?_, ?_⟩, bind_of_eq_ok (divide_num sum.ne') _⟩
  · have step : 0 < x / (x + y) * (high - low) := mul_pos positive (by linarith)
    linarith
  · have step : x / (x + y) * (high - low) < 1 * (high - low) :=
      mul_lt_mul_of_pos_right below (by linarith)
    linarith

end Bounds

end Exact

namespace Distribution

open Exact

variable {σ : Type} [UniformSource σ (Exact ℝ)] {low mode high : ℝ}

theorem le_and_num (low_le : low ≤ mode) (le_high : mode ≤ high) :
    (Scalar.le (num low) (num mode) && Scalar.le (num mode) (num high)) = true := by
  simp [low_le, le_high]

/-- **A sample lies strictly between bounds that differ.** -/
theorem yields_interior (low_le : low ≤ mode) (le_high : mode ≤ high) (lt : low < high) :
    Yields DrawsShares (sample ⟨num low, num mode, num high⟩ :
      Sampler σ (SamplingError (Exact ℝ)) (Exact ℝ)) (LiesIn (Set.Ioo low high)) := by
  have isOpen : Scalar.eq (num low) (num high) = false := by simp [lt.ne]
  obtain ⟨a, b, found, ha, hb⟩ := shapes_num low_le le_high lt
  rw [sample_of_open (le_and_num low_le le_high) isOpen]
  refine yields_step found ?_
  refine yields_andThen (yields_gamma (by linarith)) ?_
  intro z given
  obtain ⟨x, hx, rfl⟩ := given
  refine yields_andThen (yields_gamma (by linarith)) ?_
  intro z given
  obtain ⟨y, hy, rfl⟩ := given
  obtain ⟨z, hz, value⟩ := between_num hx hy lt mode
  exact yields_checked value ⟨z, hz, rfl⟩

theorem ends_of_yields {m : Sampler σ (SamplingError (Exact ℝ)) (Exact ℝ)} {r : Set ℝ}
    (yields : Yields DrawsShares m (LiesIn r)) (drawing : Drawing m) {s : σ}
    (unit : DrawsShares s) : (∃ x ∈ r, (m s).1 = .ok (num x)) ∨ RanOut (m s) := by
  rcases (yields s unit).2 with none | ⟨_, given, x, member, rfl⟩
  · exact .inr ⟨none, drawing.dries s none⟩
  · exact .inl ⟨x, member, given⟩

/-- **Over the reals no step of a sample is outside its domain.** Out of numbers from zero to below
one, a sample of bounds in order lies strictly between them if they differ, and is drawn from nothing
if they are the same; a gamma sample of a shape above zero is above zero. Either is there unless the
numbers run out. -/
theorem sample_interior {s : σ} (unit : DrawsShares s) :
    (∀ low mode high : ℝ, low ≤ mode → mode ≤ high →
      let b : Distribution (Exact ℝ) := ⟨num low, num mode, num high⟩
      (low = high → b.sample s = (.ok (num low), s)) ∧
      (low ≠ high →
        (∃ x ∈ Set.Ioo low high, (b.sample s).1 = .ok (num x)) ∨ RanOut (b.sample s))) ∧
    ∀ shape : ℝ, 0 < shape →
      (∃ x ∈ Set.Ioi 0, (gamma (num shape) s).1 = .ok (num x)) ∨ RanOut (gamma (num shape) s) := by
  refine ⟨fun low mode high low_le le_high => ⟨fun same => ?_, fun isOpen => ?_⟩,
    fun shape positive => ends_of_yields (yields_gamma positive) (drawing_gamma _) unit⟩
  · rw [sample_of_eq (le_and_num low_le le_high) (by simp [same])]
    rfl
  · have lt : low < high := lt_of_le_of_ne (low_le.trans le_high) isOpen
    exact ends_of_yields (yields_interior low_le le_high lt)
      (drawing_sample (le_and_num low_le le_high)) unit

end Distribution

namespace Exact

/-- Numbers for two rounds whose candidates are the middle ones, and accepted at once. -/
noncomputable def sixShares : Listed (Exact ℝ) :=
  let half := Scalar.decimal 5 1
  ⟨[num 0, num 0, half, num 0, num 0, half], 0⟩

theorem sixShares_eq :
    sixShares = ⟨[num 0, num 0, num (1 / 2), num 0, num 0, num (1 / 2)], 0⟩ := by
  have half : (Scalar.decimal 5 1 : Exact ℝ) = num (1 / 2) := by
    show num (((5 : ℕ) : ℝ) / 10 ^ 1) = _
    norm_num
  rw [sixShares, half]

theorem drawsShares_sixShares : DrawsShares sixShares := by
  have zero : LiesIn (Set.Ico 0 1) (num 0) := ⟨0, by norm_num, rfl⟩
  have half : LiesIn (Set.Ico 0 1) (num (1 / 2)) := ⟨1 / 2, by norm_num, rfl⟩
  rw [sixShares_eq]
  refine drawsOnly_listed fun u member => ?_
  simp only [List.mem_cons, List.not_mem_nil, or_false] at member
  rcases member with rfl | rfl | rfl | rfl | rfl | rfl <;> assumption

/-- A round whose deviate is zero accepts its middle candidate at the level of one half. -/
theorem gammaRound_middle (d c : ℝ) (rest : List (Exact ℝ)) (n : Nat) :
    gammaRound (num d) (num c)
        (⟨num 0 :: num 0 :: num (1 / 2) :: rest, n⟩ : Listed (Exact ℝ)) =
      (.ok (some (num d)), ⟨rest, n + 3⟩) := by
  have level : (Scalar.nat 1 : Exact ℝ) - num (1 / 2) = num (1 / 2) := by
    rw [nat_eq, num_sub]
    norm_num
  have deviate : normalDeviate ((Scalar.nat 1 : Exact ℝ) - num 0) (num 0) = .ok (num 0) := by
    rw [nat_eq, Nat.cast_one, num_sub, sub_zero, normalDeviate_num ⟨one_pos, le_rfl⟩]
    simp
  have root : (Scalar.nat 1 : Exact ℝ) + num c * num 0 = num 1 := by simp
  have tested (v : Exact ℝ) : accepts (num d) (num 0) v (num (1 / 2)) = .ok true := by
    have quick : Scalar.lt (num (1 / 2))
        ((Scalar.nat 1 : Exact ℝ) - Scalar.decimal 331 4 * num (0 ^ 4)) = true := by
      have bound : (Scalar.nat 1 : Exact ℝ) - Scalar.decimal 331 4 * num (0 ^ 4) =
          num (((1 : ℕ) : ℝ) - ((331 : ℕ) : ℝ) / 10 ^ 4 * 0 ^ 4) := rfl
      rw [bound, lt_num, decide_eq_true_iff]
      norm_num
    rw [accepts, bind_of_eq_ok (powerNat_num 0 4), if_pos quick]
  have first : standardNormal
      (⟨num 0 :: num 0 :: num (1 / 2) :: rest, n⟩ : Listed (Exact ℝ)) =
      (.ok (num 0), ⟨num (1 / 2) :: rest, n + 2⟩) := by
    rw [standardNormal, andThen_of_ok (openUniform_listed _ _ _), andThen_of_ok (uniform_listed _ _ _),
      deviate]
    rfl
  have above : ¬ Scalar.le (num 1) (Scalar.nat 0 : Exact ℝ) = true := by simp
  have accepted : (checked (accepts (num d) (num 0) (num 1 * num 1 * num 1) (num (1 / 2))) :
      Sampler (Listed (Exact ℝ)) (SamplingError (Exact ℝ)) Bool) ⟨rest, n + 3⟩ =
      (.ok true, ⟨rest, n + 3⟩) := by
    rw [tested]
    rfl
  rw [gammaRound, andThen_of_ok first]
  dsimp only
  rw [root, if_neg above, andThen_of_ok (openUniform_listed _ _ _), level, andThen_of_ok accepted]
  simp [done]

theorem gamma_middle (large : 1 ≤ shape) (rest : List (Exact ℝ)) (n : Nat) :
    gamma (num shape) (⟨num 0 :: num 0 :: num (1 / 2) :: rest, n⟩ : Listed (Exact ℝ)) =
      (.ok (num (shape - 1 / 3)), ⟨rest, n + 3⟩) := by
  have hd : 0 < shape - 1 / 3 := by linarith
  obtain ⟨spread, c, isRoot, isQuotient⟩ := exists_scale hd
  refine gamma_of_accepted (x := num (shape - 1 / 3)) ?_ ?_ ?_ isQuotient ?_
  · simpa using (by linarith : 0 < shape)
  · simpa using large
  · rw [shift_num, isRoot]
  · rw [shift_num]
    exact gammaRound_middle _ c rest n

theorem sample_sixShares : ∃ z, Distribution.sample ⟨num 1, num 2, num 3⟩ sixShares =
    (.ok z, ⟨[], 6⟩) := by
  obtain ⟨a, b, isShapes, ha, hb⟩ :=
    shapes_num (by norm_num : (1 : ℝ) ≤ 2) (by norm_num : (2 : ℝ) ≤ 3) (by norm_num)
  have isSum : Scalar.eq (num (a - 1 / 3) + num (b - 1 / 3)) (Scalar.nat 0) = false := by
    rw [num_add, nat_eq, eq_num, decide_eq_false_iff_not, Nat.cast_zero]
    linarith
  rw [sixShares_eq]
  exact ⟨_, Distribution.sample_of_gammas (by simp; norm_num) (by simp) isShapes
    (gamma_middle ha _ _) (gamma_middle hb _ _) isSum⟩

end Exact

/-- An estimate of one to three, with a mode of two, and a shape of three. -/
theorem Distribution.sample_interior_sixShares :
    Exact.DrawsShares Exact.sixShares ∧ (1 : ℝ) ≤ 2 ∧ (2 : ℝ) ≤ 3 ∧ (1 : ℝ) ≠ 3 ∧ (0 : ℝ) < 3 ∧
      (∃ x ∈ Set.Ioo (1 : ℝ) 3, (sample ⟨.num 1, .num 2, .num 3⟩ Exact.sixShares).1 =
        .ok (.num x)) ∧
      ∃ x ∈ Set.Ioi (0 : ℝ), (gamma (.num 3) Exact.sixShares).1 = .ok (.num x) := by
  have unit := Exact.drawsShares_sixShares
  obtain ⟨samples, gammas⟩ := sample_interior unit
  have le : (1 : ℝ) ≤ 2 := by norm_num
  have le' : (2 : ℝ) ≤ 3 := by norm_num
  have isOpen : (1 : ℝ) ≠ 3 := by norm_num
  have positive : (0 : ℝ) < 3 := by norm_num
  refine ⟨unit, le, le', isOpen, positive, ?_, ?_⟩
  · refine ((samples 1 2 3 le le').2 isOpen).resolve_right fun none => ?_
    obtain ⟨z, drawn⟩ := Exact.sample_sixShares
    rw [RanOut, drawn] at none
    cases none.1
  · refine (gammas 3 positive).resolve_right fun none => ?_
    have drawn := Exact.gamma_middle (by norm_num : (1 : ℝ) ≤ 3)
      [.num 0, .num 0, .num (1 / 2)] 0
    rw [RanOut, Exact.sixShares_eq, drawn] at none
    cases none.1

end BusinessCase
