/-
BusinessCase.Proofs.Sampling.Draws — which inputs of a trial draw numbers.

A fixed input draws nothing, and neither does an estimate without span. What is
drawn for all others is what is drawn for their estimates alone, one after the
other: neither the names of inputs nor the fixed ones between them make a
difference to it.

  §1 Inputs — `Input.estimate?`, and the values that are drawn.
  §2 Draws  — `sampleInputs_drawn`.
  §3 Tables — where a trial keeps what was drawn.
  §4 First candidates — samples without a rejection.
-/
import BusinessCase.Proofs.Scalar.Given
import BusinessCase.Proofs.Table
import BusinessCase.Simulation.Trial

namespace BusinessCase

open Scalar

variable {σ α : Type} [UniformSource σ α] [Scalar α]

/-! ## §1 Inputs -/

/-- The estimate of an input that is drawn: one whose outer bounds differ. -/
def Input.estimate? (input : Input α) : Option (Distribution α) :=
  match input.figure with
  | .fixed _ => none
  | .estimate b => if eq b.low b.high then none else some b

/-- The estimates that a plan draws from, in the order of its inputs. -/
def Plan.estimates (plan : Plan α) : List (Distribution α) :=
  plan.inputs.filterMap Input.estimate?

/-- The inputs that are drawn. -/
def drawnInputs (inputs : List (Input α)) : List (Input α) :=
  inputs.filter fun input => input.estimate?.isSome

/-- The values of the inputs that are drawn, out of the values of all inputs. -/
def drawnValues : List (Input α) → List (String × α) → List α
  | input :: inputs, entry :: entries =>
    if input.estimate?.isSome then entry.2 :: drawnValues inputs entries
    else drawnValues inputs entries
  | _, _ => []

/-- One sample of each estimate, in order. -/
def sampleEach : List (Distribution α) → Sampler σ (SamplingError α) (List α)
  | [] => Sampler.done []
  | b :: rest =>
    Sampler.andThen b.sample fun x =>
      Sampler.andThen (sampleEach rest) fun xs => Sampler.done (x :: xs)

/-! ## §2 Draws -/

section Samplers

variable {ε β γ : Type}

/-- A sampler that ends has gone through its parts one after the other. -/
theorem Sampler.andThen_eq_ok {m : Sampler σ ε β} {f : β → Sampler σ ε γ} {s s' : σ} {c : γ}
    (done : Sampler.andThen m f s = (.ok c, s')) :
    ∃ b between, m s = (.ok b, between) ∧ f b between = (.ok c, s') := by
  unfold Sampler.andThen at done
  split at done
  · next b between first => exact ⟨b, between, first, done⟩
  · cases done

theorem Sampler.andThen_of_ok {m : Sampler σ ε β} {s between : σ} {b : β}
    (first : m s = (.ok b, between)) (f : β → Sampler σ ε γ) :
    Sampler.andThen m f s = f b between := by
  unfold Sampler.andThen
  rw [first]

end Samplers

/-- An input that is not drawn leaves the source as it was. -/
theorem sample_undrawn {input : Input α} (undrawn : input.estimate? = none) {s s' : σ} {x : α}
    (done : input.figure.sample s = (.ok x, s')) : s' = s := by
  unfold Input.estimate? at undrawn
  cases figure : input.figure with
  | fixed value =>
    rw [figure] at done
    cases done
    rfl
  | estimate b =>
    rw [figure] at undrawn done
    have settled : eq b.low b.high = true := by simpa using undrawn
    rw [Figure.sample, Distribution.sample, settled] at done
    split at done
    · cases done
    · cases done
      rfl

/-- An input that is drawn is a sample of its estimate. -/
theorem sample_drawn {input : Input α} {b : Distribution α} (drawn : input.estimate? = some b) :
    (input.figure.sample : Sampler σ (SamplingError α) α) = b.sample := by
  unfold Input.estimate? at drawn
  cases figure : input.figure with
  | fixed value =>
    rw [figure] at drawn
    cases drawn
  | estimate bounds =>
    rw [figure] at drawn
    have same : bounds = b := by
      dsimp only at drawn
      split at drawn
      · cases drawn
      · exact Option.some.inj drawn
    rw [Figure.sample, same]

/-- **What is drawn for inputs is drawn for their estimates**, and the source is left where these
leave it. -/
theorem sampleInputs_drawn {inputs : List (Input α)} {s s' : σ} {entries : List (String × α)}
    (done : sampleInputs inputs s = (.ok entries, s')) :
    sampleEach (inputs.filterMap Input.estimate?) s = (.ok (drawnValues inputs entries), s') ∧
      entries.map Prod.fst = inputs.map Input.id := by
  induction inputs generalizing s entries with
  | nil =>
    cases done
    exact ⟨rfl, rfl⟩
  | cons input rest ih =>
    obtain ⟨x, between, first, done⟩ := Sampler.andThen_eq_ok done
    obtain ⟨others, last, later, done⟩ := Sampler.andThen_eq_ok done
    cases done
    obtain ⟨drawn, names⟩ := ih later
    refine ⟨?_, by rw [List.map_cons, List.map_cons, names]⟩
    cases estimate : input.estimate? with
    | none =>
      rw [sample_undrawn estimate first] at drawn
      simpa only [List.filterMap_cons, estimate, drawnValues, Option.isSome_none,
        Bool.false_eq_true, if_false] using drawn
    | some b =>
      rw [sample_drawn estimate] at first
      simp only [List.filterMap_cons, estimate, drawnValues, Option.isSome_some, if_true,
        sampleEach]
      rw [Sampler.andThen_of_ok first, Sampler.andThen_of_ok drawn]
      rfl

/-! ## §3 Tables -/

/-- A table that has an entry for each of the inputs holds what was drawn under their ids. -/
theorem find?_drawnInputs {table : Table α} (nodup : table.names.Nodup) {inputs : List (Input α)}
    {entries : List (String × α)} (names : entries.map Prod.fst = inputs.map Input.id)
    (held : ∀ entry ∈ entries, entry ∈ table) :
    (drawnInputs inputs).map (fun input => table.find? input.id) =
      (drawnValues inputs entries).map some := by
  induction inputs generalizing entries with
  | nil =>
    cases entries with
    | nil => rfl
    | cons => cases names
  | cons input rest ih =>
    cases entries with
    | nil => cases names
    | cons entry entries =>
      obtain ⟨name, names⟩ := List.cons_eq_cons.mp names
      obtain ⟨own, others⟩ := List.forall_mem_cons.mp held
      have found : table.find? input.id = some entry.2 := by
        rw [← name]
        exact (Table.find?_eq_some_iff nodup).mpr own
      have later := ih names others
      rw [drawnInputs] at later ⊢
      rw [List.filter_cons, drawnValues]
      split
      · rw [List.map_cons, List.map_cons, found, later]
      · exact later

/-- Where no two inputs share an id, the table of a trial holds what was drawn. -/
theorem find?_ofEntries_drawnInputs {inputs : List (Input α)} {entries : List (String × α)}
    (names : entries.map Prod.fst = inputs.map Input.id)
    (distinct : (inputs.map Input.id).Nodup) :
    (drawnInputs inputs).map (fun input => (Table.ofEntries entries).find? input.id) =
      (drawnValues inputs entries).map some := by
  have nodup : (Table.names entries).Nodup := by rwa [Table.names, names]
  rw [Table.ofEntries_of_nodup nodup]
  exact find?_drawnInputs nodup names fun _ => id

/-! ## §4 First candidates -/

/-- Gives what a round has accepted; where that is nothing, another sampler goes on. -/
def Sampler.acceptedOr {ε β : Type} (next : Sampler σ ε β) : Option β → Sampler σ ε β
  | some b => done b
  | none => next

omit [Scalar α] in
/-- A loop is its round, and the loop again where that accepts nothing. -/
theorem Sampler.untilAccepted_eq {ε β : Type} {round : Sampler σ ε (Option β)}
    (shrinks : Shrinking round) :
    untilAccepted round shrinks = andThen round (acceptedOr (untilAccepted round shrinks)) := by
  funext s
  rw [untilAccepted, andThen]
  split <;> rename_i outcome <;> rw [outcome] <;> rfl

omit [Scalar α] in
/-- A loop ends where its first round accepts. -/
theorem Sampler.untilAccepted_of_some {ε β : Type} {round : Sampler σ ε (Option β)}
    (shrinks : Shrinking round) {s s' : σ} {b : β} (accepted : round s = (.ok (some b), s')) :
    untilAccepted round shrinks s = (.ok b, s') := by
  rw [untilAccepted_eq, andThen_of_ok accepted]
  rfl

omit [Scalar α] in
theorem Sampler.uniform_listed (u : α) (rest : List α) (n : Nat) :
    (uniform : Sampler (Listed α) (SamplingError α) α) ⟨u :: rest, n⟩ =
      (.ok u, ⟨rest, n + 1⟩) := rfl

theorem Sampler.openUniform_listed (u : α) (rest : List α) (n : Nat) :
    (openUniform : Sampler (Listed α) (SamplingError α) α) ⟨u :: rest, n⟩ =
      (.ok (nat 1 - u), ⟨rest, n + 1⟩) := rfl

/-- A gamma sample whose first candidate is accepted. -/
theorem Sampler.gamma_of_accepted {shape spread c x : α} {s s' : σ}
    (positive : le shape (nat 0) = false) (large : lt shape (nat 1) = false)
    (isRoot : root (nat 9 * (shape - nat 1 / nat 3)) = .ok spread)
    (isQuotient : divide (nat 1) spread = .ok c)
    (accepted : gammaRound (shape - nat 1 / nat 3) c s = (.ok (some x), s')) :
    gamma shape s = (.ok x, s') := by
  have spreads : (checked (root (nat 9 * (shape - nat 1 / nat 3))) :
      Sampler σ (SamplingError α) α) s = (.ok spread, s) := by
    rw [isRoot]
    rfl
  have quotient : (checked (divide (nat 1) spread) : Sampler σ (SamplingError α) α) s =
      (.ok c, s) := by
    rw [isQuotient]
    rfl
  rw [gamma, positive, large]
  simp only [Bool.false_eq_true, if_false]
  rw [gammaLarge, andThen_of_ok spreads, andThen_of_ok quotient]
  exact untilAccepted_of_some _ accepted

/-- Bounds without span are sampled by what they are. -/
theorem Distribution.sample_of_eq {b : Distribution α}
    (ordered : (le b.low b.mode && le b.mode b.high) = true) (same : eq b.low b.high = true) :
    (b.sample : Sampler σ (SamplingError α) α) = Sampler.done b.low := by
  rw [sample, ordered, same]
  rfl

/-- Bounds with a span are sampled by two gamma samples. -/
theorem Distribution.sample_of_open {b : Distribution α}
    (ordered : (le b.low b.mode && le b.mode b.high) = true) (isOpen : eq b.low b.high = false) :
    (b.sample : Sampler σ (SamplingError α) α) =
      Sampler.andThen (Sampler.checked b.shapes) fun shapes =>
        Sampler.andThen (Sampler.gamma shapes.1) fun x =>
          Sampler.andThen (Sampler.gamma shapes.2) fun y => Sampler.checked (b.between x y) := by
  rw [sample, ordered, isOpen]
  rfl

/-- A sample is made of two gamma samples, unless these have no sum to share. -/
theorem Distribution.sample_of_gammas {b : Distribution α} {shapes : α × α} {x y : α}
    {s between s' : σ} (ordered : (le b.low b.mode && le b.mode b.high) = true)
    (isOpen : eq b.low b.high = false) (isShapes : b.shapes = .ok shapes)
    (first : Sampler.gamma shapes.1 s = (.ok x, between))
    (second : Sampler.gamma shapes.2 between = (.ok y, s')) (isSum : eq (x + y) (nat 0) = false) :
    b.sample s = (.ok (b.low + x / (x + y) * (b.high - b.low)), s') := by
  have drawn : (Sampler.checked b.shapes : Sampler σ (SamplingError α) (α × α)) s =
      (.ok shapes, s) := by
    rw [isShapes]
    rfl
  rw [sample_of_open ordered isOpen, Sampler.andThen_of_ok drawn, Sampler.andThen_of_ok first,
    Sampler.andThen_of_ok second, Distribution.between, divide, isSum]
  rfl

/-- Numbers for two rounds whose candidates are the middle ones, and accepted at once. -/
def sixNumbers : Listed Float := ⟨[0, 0, 0.5, 0, 0, 0.5], 0⟩

theorem gamma_three (rest : List Float) (n : Nat) :
    @Sampler.gamma (Listed Float) Float _ levelDoubles 3 ⟨0 :: 0 :: 0.5 :: rest, n⟩ =
      (.ok 2.6666666666666665, ⟨rest, n + 3⟩) := by
  let _ : Scalar Float := levelDoubles
  have isRoot : @root Float levelDoubles (nat 9 * (3 - nat 1 / nat 3)) = .ok 4.898979485566356 := by
    decide +kernel
  have isQuotient : @divide Float levelDoubles (nat 1) 4.898979485566356 =
      .ok 0.20412414523193154 := by decide +kernel
  exact Sampler.gamma_of_accepted rfl rfl isRoot isQuotient rfl

theorem sample_sixNumbers :
    @Distribution.sample (Listed Float) Float _ levelDoubles ⟨1, 2, 3⟩ sixNumbers =
      (.ok 2, ⟨[], 6⟩) := by
  let _ : Scalar Float := levelDoubles
  have isShapes : @Distribution.shapes Float levelDoubles ⟨1, 2, 3⟩ = .ok (3, 3) := by
    decide +kernel
  have middle : 1 + 2.6666666666666665 / (2.6666666666666665 + 2.6666666666666665) * (3 - 1) =
      (2 : Float) := by decide +kernel
  have drawn := Distribution.sample_of_gammas rfl rfl isShapes (gamma_three [0, 0, 0.5] 0)
    (gamma_three [] 3) rfl
  exact drawn.trans (congrArg (fun x => (Except.ok x, (⟨[], 6⟩ : Listed Float))) middle)

end BusinessCase
