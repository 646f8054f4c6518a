/-
BusinessCase.Proofs.Sampling.Outcomes — what samplers give out of good sources.

A source of numbers from zero to below one stays one while numbers are drawn
from it. A sampler can then be said to give only values of a kind, or else to
run out of numbers: this passes through its parts one after the other, and
through a loop from any one of its rounds.

  §1 Sources  — `DrawsOnly`, `DrawsUnit`, lists and the seeded generators.
  §2 Samplers — `Sampler.Yields`, one lemma for each way to make a sampler.
  §3 Draws    — `yields_uniform` and `yields_openUniform`.
-/
import BusinessCase.Proofs.Scalar.Given
import BusinessCase.Proofs.Scalar.Kinds
import BusinessCase.Random.Permuted
import BusinessCase.Sampling.Sampler

namespace BusinessCase

/-! ## §1 Sources -/

section Numbers

variable {σ α : Type} [UniformSource σ α] {wanted : α → Prop} {s s' : σ} {u : α}

/-- Every number that the source will ever give is as wanted. -/
def DrawsOnly (wanted : α → Prop) (s : σ) : Prop :=
  ∀ between, Relation.ReflTransGen
    (fun before after => ∃ u, UniformSource.draw? before = some (u, after)) s between →
      ∀ u s', UniformSource.draw? between = some (u, s') → wanted u

/-- What is drawn from such a source is such a number, and leaves such a source. -/
theorem DrawsOnly.draw (good : DrawsOnly wanted s)
    (drawn : UniformSource.draw? s = some (u, s')) : wanted u ∧ DrawsOnly wanted s' :=
  ⟨good s .refl u s' drawn, fun between later => good between (later.head ⟨u, drawn⟩)⟩

theorem drawsOnly_of_forall
    (all : ∀ (s s' : σ) u, UniformSource.draw? s = some (u, s') → wanted u) (s : σ) :
    DrawsOnly wanted s :=
  fun between _ u s' drawn => all between s' u drawn

/-- Of numbers written down beforehand, those that are left will be given. -/
theorem drawsOnly_listed {s : Listed α} (all : ∀ u ∈ s.left, wanted u) : DrawsOnly wanted s := by
  have next {s s' : Listed α} {u : α} (drawn : UniformSource.draw? s = some (u, s')) :
      s.left = u :: s'.left := by
    simp only [UniformSource.draw?] at drawn
    split at drawn
    · cases drawn
    · next left =>
      cases drawn
      exact left
  intro between later
  have kept : ∀ u ∈ between.left, wanted u := by
    induction later with
    | refl => exact all
    | tail _ step ih =>
      obtain ⟨u, drawn⟩ := step
      intro v member
      exact ih v (by rw [next drawn]; exact List.mem_cons_of_mem u member)
  intro u s' drawn
  exact kept u (by rw [next drawn]; exact List.mem_cons_self)

end Numbers

section Sources

variable {σ : Type} [UniformSource σ Float] {s s' : σ} {u : Float}

/-- A number from zero to below one. -/
def IsUnit (u : Float) : Prop := 0 ≤ u ∧ u < 1

theorem isFinite_of_isUnit (isUnit : IsUnit u) : u.isFinite = true := by
  obtain ⟨le, lt⟩ := isUnit
  have above : ((0 : Float).toModel.unpack.compare u.toModel.unpack).any (·.isLE) = true :=
    decide_eq_true_iff.mp le
  have below : u.toModel.unpack.compare (1 : Float).toModel.unpack = some .lt :=
    (decide_eq_true_iff.trans beq_iff_eq).mp lt
  rw [← Bool.not_eq_false]
  intro infinite
  rcases unpack_of_not_isFinite infinite with none | ⟨sign, infinite⟩
  · rw [none] at above
    cases above
  · rw [infinite] at above below
    cases sign
    · cases above
    · cases below

theorem isUnit_iff : IsUnit u ↔ u.isFinite = true ∧ 0 ≤ value u ∧ value u < 1 := by
  have zero : value 0 = 0 := value_zero
  have one : value 1 = 1 := value_one
  constructor
  · intro isUnit
    have finite := isFinite_of_isUnit isUnit
    refine ⟨finite, ?_, ?_⟩
    · exact zero ▸ (float_le_iff_value rfl finite).mp isUnit.1
    · exact one ▸ (float_lt_iff_value finite rfl).mp isUnit.2
  · rintro ⟨finite, ge, lt⟩
    exact ⟨(float_le_iff_value rfl finite).mpr (zero ▸ ge),
      (float_lt_iff_value finite rfl).mpr (one ▸ lt)⟩

/-- The second state is that after a draw from the first. -/
def Draws (s s' : σ) : Prop := ∃ u, UniformSource.draw? s = some (u, s')

/-- Every number that the source will ever give is from zero to below one. -/
def DrawsUnit (s : σ) : Prop :=
  ∀ between, Relation.ReflTransGen Draws s between →
    ∀ u s', UniformSource.draw? between = some (u, s') → IsUnit u

theorem drawsUnit_iff : DrawsUnit s ↔ DrawsOnly IsUnit s := Iff.rfl

/-- The upper bits of a word make a number from zero to below one. -/
theorem isUnit_unitInterval (word : UInt64) : IsUnit (unitInterval word.toNat) := by
  have small : word.toNat >>> 11 < 2 ^ 53 := by
    rw [Nat.shiftRight_eq_div_pow]
    have bound := word.toNat_lt
    omega
  have units := ofNat_within small
  have power : value 9007199254740992.0 = 2 ^ (53 : ℕ) := by
    have unpacked : (9007199254740992.0 : Float).toModel.unpack =
      .finite .positive (2 ^ 52) 1 (by decide) := rfl
    rw [value, unpacked, valueOf_finite, side]
    norm_num
  have rounds := div_roundsTo (y := 9007199254740992.0) units.finite rfl
    (by rw [power]; positivity)
  rw [le_antisymm units.le units.ge, power] at rounds
  have below : ((word.toNat >>> 11 : ℕ) : ℝ) < 2 ^ (53 : ℕ) := by exact_mod_cast small
  have ge : (0 : ℝ) ≤ (word.toNat >>> 11 : ℕ) / 2 ^ (53 : ℕ) := by positivity
  have lt : ((word.toNat >>> 11 : ℕ) : ℝ) / 2 ^ (53 : ℕ) < 1 :=
    (div_lt_one (by positivity)).mpr below
  have finite : (unitInterval word.toNat).isFinite = true :=
    (rounds.within isBound_zero isBound_one ge lt.le).finite
  have grid : OnGrid ((word.toNat >>> 11 : ℕ) / 2 ^ (53 : ℕ)) := by
    refine ⟨(word.toNat >>> 11 : ℕ), -53, ?_, ?_, by decide⟩
    · rw [zpow_neg, div_eq_mul_inv]
      norm_cast
    · rw [Nat.abs_cast]
      exact_mod_cast small.le
  have same : value (unitInterval word.toNat) = _ := rounds.eq finite grid
  refine isUnit_iff.mpr ⟨finite, ?_, ?_⟩
  · rw [same]
    exact ge
  · rw [same]
    exact lt

theorem drawsUnit_congruential (s : Congruential) : DrawsUnit s := by
  refine drawsUnit_iff.mpr (drawsOnly_of_forall (fun s s' u drawn => ?_) s)
  simp only [UniformSource.draw?] at drawn
  split at drawn
  · cases drawn
    exact isUnit_unitInterval _
  · cases drawn

theorem drawsUnit_permuted (s : Permuted) : DrawsUnit s := by
  refine drawsUnit_iff.mpr (drawsOnly_of_forall (fun s s' u drawn => ?_) s)
  simp only [UniformSource.draw?] at drawn
  split at drawn
  · cases drawn
    exact isUnit_unitInterval _
  · cases drawn

end Sources

/-! ## §2 Samplers -/

namespace Sampler

variable {σ α β γ : Type}

/-- As long as the source is as wanted, the sampler gives a value that is as wanted or runs out of
numbers, and leaves a source that is as wanted. -/
def Yields (ready : σ → Prop) (m : Sampler σ (SamplingError α) β) (good : β → Prop) : Prop :=
  ∀ s, ready s → ready (m s).2 ∧ ((m s).1 = .error .exhausted ∨ ∃ b, (m s).1 = .ok b ∧ good b)

variable {ready : σ → Prop} {m : Sampler σ (SamplingError α) β} {good : β → Prop}

theorem yields_done {b : β} (holds : good b) :
    Yields ready (done b : Sampler σ (SamplingError α) β) good :=
  fun _ start => ⟨start, .inr ⟨b, rfl, holds⟩⟩

theorem yields_checked {outcome : Except ArithmeticError β} {b : β} (value : outcome = .ok b)
    (holds : good b) : Yields ready (checked outcome : Sampler σ (SamplingError α) β) good := by
  subst value
  exact yields_done holds

theorem yields_andThen {f : β → Sampler σ (SamplingError α) γ} {best : γ → Prop}
    (first : Yields ready m good) (second : ∀ b, good b → Yields ready (f b) best) :
    Yields ready (andThen m f) best := by
  intro s start
  obtain ⟨kept, none | ⟨b, given, holds⟩⟩ := first s start
  · have outcome : m s = (.error .exhausted, (m s).2) := Prod.ext none rfl
    rw [andThen, outcome]
    exact ⟨kept, .inl rfl⟩
  · have outcome : m s = (.ok b, (m s).2) := Prod.ext given rfl
    rw [andThen, outcome]
    exact second b holds _ kept

/-- A step that does not fail is passed with what it gives. -/
theorem yields_step {outcome : Except ArithmeticError γ} {c : γ} (value : outcome = .ok c)
    {f : γ → Sampler σ (SamplingError α) β} (rest : Yields ready (f c) good) :
    Yields ready (andThen (checked outcome) f) good := by
  subst value
  exact rest

/-- **A loop gives what its last round accepts.** -/
theorem yields_untilAccepted [UniformSource σ α] {round : Sampler σ (SamplingError α) (Option β)}
    (shrinks : Shrinking round) (each : Yields ready round fun found => ∀ b ∈ found, good b) :
    Yields ready (untilAccepted round shrinks) good := by
  intro s start
  fun_induction untilAccepted round shrinks s with
  | case1 s e s' drawn =>
    obtain ⟨kept, outcome⟩ := each s start
    rw [drawn] at kept outcome
    refine ⟨kept, .inl ?_⟩
    rcases outcome with none | ⟨b, given, -⟩
    · exact congrArg Except.error (Except.error.inj none)
    · cases given
  | case2 s b s' drawn =>
    obtain ⟨kept, outcome⟩ := each s start
    rw [drawn] at kept outcome
    refine ⟨kept, .inr ⟨b, rfl, ?_⟩⟩
    rcases outcome with none | ⟨found, given, holds⟩
    · cases none
    · cases given
      exact holds b rfl
  | case3 s s' drawn ih =>
    obtain ⟨kept, -⟩ := each s start
    rw [drawn] at kept
    exact ih kept

/-! ## §3 Draws -/

theorem yields_uniform [UniformSource σ α] {wanted : α → Prop} :
    Yields (DrawsOnly wanted) (uniform : Sampler σ (SamplingError α) α) wanted := by
  intro s good
  unfold uniform
  split
  · next u s' drawn =>
    obtain ⟨holds, kept⟩ := good.draw drawn
    exact ⟨kept, .inr ⟨u, rfl, holds⟩⟩
  · exact ⟨good, .inl rfl⟩

/-- Taken from one, such a number is above zero by half a unit of one at least. -/
theorem openUnit_within {u : Float} (isUnit : IsUnit u) :
    Within (2 ^ (-53 : ℤ)) 1 (Scalar.nat 1 - u) := by
  obtain ⟨finite, ge, lt⟩ := isUnit_iff.mp isUnit
  have gap := onGrid_gap (onGrid_neg (onGrid_value u)) (by linarith)
  refine (sub_roundsTo rfl finite).within (isBound_two_zpow (by decide) (by decide)) isBound_one
    ?_ ?_
  · rw [value_one]
    linarith
  · rw [value_one]
    linarith

theorem yields_openUniform [UniformSource σ Float] (log cos : Float → Float) :
    Yields DrawsUnit (@openUniform σ Float _ (doublesWith log cos)) (Within (2 ^ (-53 : ℤ)) 1) :=
  yields_andThen yields_uniform fun _ isUnit => yields_done (openUnit_within isUnit)

end Sampler

end BusinessCase
