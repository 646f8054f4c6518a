/-
BusinessCase.Proofs.Settings — settings that come from the environment alone.

Where nothing is given outright, counts and limits are whole numbers: the
variables are read as such, and so are the defaults. Nothing that is read from
a text is too long to be shown.

  §1 Variables — numbers from the environment.
  §2 Settings  — `Settings.Drawn`, and that settings are so.
-/
import BusinessCase.Proofs.Formula.Room
import BusinessCase.Proofs.Steps
import BusinessCase.Proofs.Value.Sizes
import BusinessCase.Settings

namespace BusinessCase

open Formula

variable {env : Environment} {s : Settings}

/-! ## §1 Variables -/

theorem Environment.isShown_of_int? {name : String} {n : Int}
    (read : env.int? name = .ok (some n)) : (Value.int n).isShown := by
  unfold Environment.int? at read
  split at read
  · cases read
  · next text _ =>
    rw [Value.truncate] at read
    cases made : Decimal.readInt text with
    | error fault =>
      rw [made] at read
      cases read
    | ok k =>
      rw [made] at read
      cases read
      exact Value.isShown_int_iff.mpr (Decimal.lt_shownBound_of_readInt made)

/-- A setting that is a count is a whole number unless it is given outright. -/
theorem Given.orInt_nil {name variableName : String} {default : Int} {value : Value}
    (read : Given.orInt [] name env variableName default = .ok value) : ∃ n, value = .int n := by
  obtain ⟨n, -, same⟩ := map_eq_ok read
  exact ⟨n, same.symm⟩

/-! ## §2 Settings -/

/-- Settings as they come from the environment. -/
structure Settings.Drawn (env : Environment) (s : Settings) : Prop where
  limits : readLimits env [] = .ok s.limits
  iterations : ∃ n, s.iterations = .int n
  maxIterations : ∃ n, s.maxIterations = .int n
  seed : s.seed.isShown

theorem Settings.drawn (read : Settings.read env [] = .ok s) : s.Drawn env := by
  unfold Settings.read at read
  obtain ⟨_, ⟨⟩, read⟩ := bind_eq_ok read
  simp only [Value.field?_nil, Option.isSome_none, Bool.false_eq_true, if_false] at read
  obtain ⟨_, ⟨⟩, read⟩ := bind_eq_ok read
  obtain ⟨names, -, read⟩ := bind_eq_ok read
  obtain ⟨iterations, count, read⟩ := bind_eq_ok read
  obtain ⟨maxIterations, greatest, read⟩ := bind_eq_ok read
  obtain ⟨seed, seeded, read⟩ := bind_eq_ok read
  obtain ⟨batchSize, -, read⟩ := bind_eq_ok read
  obtain ⟨workers, -, read⟩ := bind_eq_ok read
  obtain ⟨executorGiven, -, read⟩ := bind_eq_ok read
  obtain ⟨checkInterval, -, read⟩ := bind_eq_ok read
  obtain ⟨pollSeconds, -, read⟩ := bind_eq_ok read
  obtain ⟨topK, -, read⟩ := bind_eq_ok read
  obtain ⟨horizon, -, read⟩ := bind_eq_ok read
  obtain ⟨limits, bounds, read⟩ := bind_eq_ok read
  obtain ⟨positiveBatch, -, read⟩ := bind_eq_ok read
  obtain ⟨positiveWorkers, -, read⟩ := bind_eq_ok read
  split at read
  · cases read
  · cases read
    refine ⟨bounds, Given.orInt_nil count, Given.orInt_nil greatest, ?_⟩
    obtain ⟨n, asked, rfl⟩ := map_eq_ok seeded
    cases n with
    | none => rfl
    | some n => exact Environment.isShown_of_int? asked

/-- Limits from the environment are safe where the nesting limit is low enough. -/
theorem Settings.Drawn.safe (drawn : s.Drawn env) {k : Int} (nesting : s.limits.nesting = .int k)
    {places : Nat} (low : places + 5 * k.toNat ≤ readingPlaces) :
    (s.limits.inside places).Safe := by
  obtain ⟨_, -, read⟩ := bind_eq_ok drawn.limits
  obtain ⟨expressionLength, length, read⟩ := bind_eq_ok read
  obtain ⟨_, -, read⟩ := bind_eq_ok read
  obtain ⟨depth, deep, read⟩ := bind_eq_ok read
  obtain ⟨m, rfl⟩ := Given.orInt_nil length
  obtain ⟨n, rfl⟩ := Given.orInt_nil deep
  have whole := (Except.ok.inj read).symm
  refine ⟨⟨k, nesting, ?_⟩, ?_, ?_⟩
  · rw [Limits.inside, whole]
    simpa only [Nat.zero_add] using low
  · rw [Limits.inside, whole]
    rfl
  · rw [Limits.inside, whole]
    rfl

end BusinessCase
