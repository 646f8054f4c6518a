/-
BusinessCase.Proofs.Simulation.Partition — a stream cut into samples and trials.

The samples of a trial, and the trials of a batch, draw from one source, each
from where the one before left it. So what the source has given is a row of
blocks without overlap or gap: one for every trial, and within it one for every
input of the plan. Each block alone decides its value.

  §1 Inputs — `SampledIn`, the blocks of the inputs of a trial.
  §2 Trials — `Plan.TriedIn`, the blocks of a trial and of a batch.
  §3 Whole  — `stream_partition`.
-/
import BusinessCase.Proofs.Sampling.Blocks
import BusinessCase.Proofs.Simulation.SampleColumns

namespace BusinessCase

open Sampler Scalar

variable {α : Type} [Scalar α]

/-! ## §1 Inputs -/

/-- Every input has its value from a block of its own. -/
inductive SampledIn : List (Input α) → List (String × α) → List (List α) → Prop where
  | nil : SampledIn [] [] []
  | cons {input : Input α} {inputs : List (Input α)} {x : α} {entries : List (String × α)}
    {block : List α} {blocks : List (List α)}
    (first : Takes .exhausted (fun _ _ => input.figure.sample) block x)
    (later : SampledIn inputs entries blocks) :
    SampledIn (input :: inputs) ((input.id, x) :: entries) (block :: blocks)

variable {inputs : List (Input α)} {entries : List (String × α)}

theorem inBlocks_figure (figure : Figure α) :
    InBlocks .exhausted (fun _ _ => figure.sample : AnySampler α (SamplingError α) α) := by
  cases figure with
  | fixed x => exact inBlocks_lift (.ok x)
  | estimate b => exact b.inBlocks_sample

/-- The inputs of a trial take their blocks one behind the other. -/
theorem SampledIn.takes {blocks : List (List α)} (sampled : SampledIn inputs entries blocks) :
    Takes .exhausted (fun _ _ => sampleInputs inputs) blocks.flatten entries := by
  induction sampled with
  | nil => exact takes_done
  | @cons input inputs x entries block blocks first _ ih =>
    have rest := ih.andThen (f := fun others _ _ => done ((input.id, x) :: others)) takes_done
    rw [List.append_nil] at rest
    exact first.andThen
      (f := fun x _ _ => andThen (sampleInputs inputs) fun others => done ((input.id, x) :: others))
      rest

/-- **The samples of a trial cut what was drawn into blocks**, one for each input. -/
theorem exists_sampledIn {σ : Type} [UniformSource σ α] {s t : σ}
    (ran : sampleInputs inputs s = (.ok entries, t)) :
    ∃ blocks, Gives s blocks.flatten t ∧ SampledIn inputs entries blocks := by
  induction inputs generalizing s entries with
  | nil =>
    cases ran
    exact ⟨[], rfl, .nil⟩
  | cons input rest ih =>
    obtain ⟨x, between, first, ran⟩ := andThen_eq_ok ran
    obtain ⟨others, last, later, ended⟩ := andThen_eq_ok ran
    cases ended
    obtain ⟨block, given, taken⟩ := inBlocks_figure input.figure σ s between x first
    obtain ⟨blocks, givenLater, sampled⟩ := ih later
    exact ⟨block :: blocks, gives_append.mpr ⟨between, given, givenLater⟩, .cons taken sampled⟩

/-! ## §2 Trials -/

variable {plan : Plan α}

/-- The trial takes exactly these blocks, one for each input of the plan. -/
structure Plan.TriedIn (plan : Plan α) (blocks : List (List α)) (trial : Trial α) : Prop where
  takes : Takes (.sampling .exhausted) (fun _ _ => plan.trial) blocks.flatten trial
  sampled : ∃ entries, trial.sampled = Table.ofEntries entries ∧
    SampledIn plan.inputs entries blocks

/-- A trial draws for its inputs, and for nothing else. -/
theorem SampledIn.triedIn {blocks : List (List α)} {trial : Trial α}
    (sampled : SampledIn plan.inputs entries blocks)
    (settled : plan.settle (Table.ofEntries entries) = .ok trial) :
    plan.TriedIn blocks trial where
  takes := {
    returns := by
      intro σ _ s t given
      unfold Plan.trial
      rw [sampled.takes.returns given]
      exact congrArg (·, t) settled
    runsDry := by
      intro σ _ s t front isFront shorter given none
      unfold Plan.trial
      rw [sampled.takes.runsDry isFront shorter given none] }
  sampled := ⟨entries, settle_sampled settled, sampled⟩

theorem exists_triedIn {σ : Type} [UniformSource σ α] {s t : σ} {trial : Trial α}
    (ran : plan.trial s = (.ok trial, t)) :
    ∃ blocks, Gives s blocks.flatten t ∧ plan.TriedIn blocks trial := by
  unfold Plan.trial at ran
  split at ran
  · cases ran
  · next entries between inputs =>
    obtain ⟨settled, rfl⟩ := Prod.mk.inj ran
    obtain ⟨blocks, given, sampled⟩ := exists_sampledIn inputs
    exact ⟨blocks, given, sampled.triedIn settled⟩

/-- **Trials one after the other cut what was drawn into blocks**, one for each trial. -/
theorem exists_partition {σ : Type} [UniformSource σ α] {s : σ} {count : Nat}
    {trials : List (Trial α)} (ran : (List.range count).mapM (plan.trialAt s) = .ok trials) :
    ∃ blocks : List (List (List α)),
      Gives s (blocks.map List.flatten).flatten (plan.stateAfter count s) ∧
        List.Forall₂ plan.TriedIn blocks trials := by
  induction count generalizing s trials with
  | zero =>
    cases ran
    exact ⟨[], rfl, .nil⟩
  | succ count ih =>
    have later : plan.trialAt s ∘ Nat.succ = plan.trialAt (plan.trial s).2 := rfl
    rw [List.range_succ_eq_map] at ran
    obtain ⟨trial, others, first, rest, rfl⟩ := mapM_cons_eq_ok ran
    rw [List.mapM_map, later] at rest
    have whole : plan.trial s = (.ok trial, (plan.trial s).2) := Prod.ext first rfl
    obtain ⟨block, given, tried⟩ := exists_triedIn whole
    obtain ⟨blocks, givenLater, triedLater⟩ := ih rest
    exact ⟨block :: blocks, gives_append.mpr ⟨(plan.trial s).2, given, givenLater⟩,
      .cons tried triedLater⟩

/-! ## §3 Whole -/

/-- **A stream falls into the blocks of its samples and trials.** A sample of an estimate or of a
gamma distribution that comes out of a list has taken its first numbers: it comes out of every
stream that begins with them, which is left right behind them, and out of no stream that ends
before. What is drawn for the inputs of a plan, and for the trials of a batch, is a row of such
blocks, one for every input and one for every trial. -/
theorem stream_partition (b : Distribution α) (shape : α) (plan : Plan α) :
    (∀ us n x t, b.sample (⟨us, n⟩ : Listed α) = (.ok x, t) →
      ∃ k ≤ us.length, t = ⟨us.drop k, n + k⟩ ∧
        Takes .exhausted (fun _ _ => b.sample) (us.take k) x) ∧
    (∀ us n x t, gamma shape (⟨us, n⟩ : Listed α) = (.ok x, t) →
      ∃ k ≤ us.length, t = ⟨us.drop k, n + k⟩ ∧
        Takes .exhausted (fun _ _ => gamma shape) (us.take k) x) ∧
    ∀ (σ : Type) [UniformSource σ α] (s : σ),
      (∀ inputs entries t, sampleInputs inputs s = (.ok entries, t) →
        ∃ blocks, Gives s blocks.flatten t ∧ SampledIn inputs entries blocks) ∧
      ∀ signal interval count looks trials,
        (runBatch plan signal interval count s looks).1 = .ok trials →
          ∃ blocks : List (List (List α)),
            Gives s (blocks.map List.flatten).flatten (plan.stateAfter count s) ∧
              List.Forall₂ plan.TriedIn blocks trials := by
  refine ⟨fun us n x t ran => b.inBlocks_sample.listed ran,
    fun us n x t ran => (built_gamma shape).inBlocks.listed ran, fun σ _ s => ⟨?_, ?_⟩⟩
  · intro inputs entries t ran
    exact exists_sampledIn ran
  · intro signal interval count looks trials ran
    exact exists_partition (batchFrom_eq_ok ran)

/-- The theorem at six numbers: with one behind them, cut off behind the fourth, and twice for two
trials. -/
theorem stream_partition_sixNumbers :
    @Distribution.sample (Listed Float) Float _ levelDoubles ⟨1, 2, 3⟩
        ⟨sixNumbers.left ++ [0.25], 3⟩ = (.ok 2, ⟨[0.25], 9⟩) ∧
    @Distribution.sample (Listed Float) Float _ levelDoubles ⟨1, 2, 3⟩
        ⟨sixNumbers.left.take 4, 0⟩ = (.error .exhausted, ⟨[], 4⟩) ∧
    ∃ trials blocks,
      (@runBatch (Listed Float) Float _ levelDoubles pricePlan none (.whole 250) 2
        ⟨sixNumbers.left ++ sixNumbers.left, 0⟩ 0).1 = .ok trials ∧
      trials.length = 2 ∧ List.Forall₂ (@Plan.TriedIn Float levelDoubles pricePlan) blocks trials ∧
      (blocks.map List.flatten).flatten = sixNumbers.left ++ sixNumbers.left := by
  let _ : Scalar Float := levelDoubles
  obtain ⟨samples, -, streams⟩ := stream_partition (⟨1, 2, 3⟩ : Distribution Float) 3 pricePlan
  obtain ⟨k, -, left, taken⟩ := samples sixNumbers.left 0 2 ⟨[], 6⟩ sample_sixNumbers
  obtain rfl : k = 6 := by simpa using (congrArg Listed.drawn left).symm
  have given (us : List Float) (n : Nat) :
      Gives (⟨sixNumbers.left ++ us, n⟩ : Listed Float) sixNumbers.left ⟨us, n + 6⟩ :=
    gives_listed.mpr ⟨rfl, rfl⟩
  refine ⟨taken.returns (given [0.25] 3), ?_, ?_⟩
  · have four : Gives (⟨sixNumbers.left.take 4, 0⟩ : Listed Float) (sixNumbers.left.take 4)
        ⟨[], 4⟩ := gives_listed.mpr ⟨rfl, rfl⟩
    exact taken.runsDry (List.take_prefix 4 _) (by decide) four rfl
  · obtain ⟨t, ended⟩ := pricePlan_trial
    obtain ⟨block, drawn, tried⟩ := exists_triedIn ended
    have six : sixNumbers.left = block.flatten :=
      (gives_listed.mp drawn).1.trans (List.append_nil _)
    have trial (us : List Float) (n : Nat) :
        pricePlan.trial (⟨sixNumbers.left ++ us, n⟩ : Listed Float) = (.ok t, ⟨us, n + 6⟩) :=
      tried.takes.returns (six ▸ given us n)
    have second := trial [] 6
    rw [List.append_nil] at second
    have ran : (runBatch pricePlan none (.whole 250) 2
        (⟨sixNumbers.left ++ sixNumbers.left, 0⟩ : Listed Float) 0).1 = .ok [t, t] := by
      simp only [runBatch, batchFrom, lookAt, trial, second]
    have last : pricePlan.stateAfter 2
        (⟨sixNumbers.left ++ sixNumbers.left, 0⟩ : Listed Float) = ⟨[], 12⟩ := by
      simp only [Plan.stateAfter, trial, second]
    obtain ⟨blocks, all, each⟩ := (streams _ _).2 none (.whole 250) 2 0 _ ran
    rw [last] at all
    refine ⟨_, blocks, ran, rfl, each, ?_⟩
    exact ((gives_listed.mp all).1.trans (List.append_nil _)).symm

end BusinessCase
