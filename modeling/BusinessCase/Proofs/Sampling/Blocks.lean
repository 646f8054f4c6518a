/-
BusinessCase.Proofs.Sampling.Blocks — the numbers that a sample takes from a stream.

A sampler that gives a value has drawn a block of numbers from the front of its
stream, and has looked at nothing else. Whatever source begins with that block
gives the same value and is left right behind it; a source that ends inside the
block runs out there. This is so of a single draw, and it passes to sequences
and to loops, however many rounds were rejected.

  §1 Streams  — `Gives`, what a source gives on the way between two states.
  §2 Blocks   — `Sampler.Takes`, and the block of a sequence.
  §3 Samplers — `Sampler.InBlocks`, one lemma for each way to make a sampler.
-/
import BusinessCase.Proofs.Sampling.Drawing

namespace BusinessCase

open Scalar

/-! ## §1 Streams -/

section Streams

variable {σ α : Type}

/-- From the state `s` on the source gives these numbers, and is then in the state `t`. -/
def Gives [UniformSource σ α] : σ → List α → σ → Prop
  | s, [], t => s = t
  | s, u :: us, t => ∃ between, UniformSource.draw? s = some (u, between) ∧ Gives between us t

theorem gives_append [UniformSource σ α] {xs ys : List α} {s t : σ} :
    Gives s (xs ++ ys) t ↔ ∃ between, Gives s xs between ∧ Gives between ys t := by
  induction xs generalizing s with
  | nil => simp [Gives]
  | cons u us ih =>
    simp only [List.cons_append, Gives, ih]
    constructor
    · rintro ⟨next, drawn, between, first, later⟩
      exact ⟨between, ⟨next, drawn, first⟩, later⟩
    · rintro ⟨between, ⟨next, drawn, first⟩, later⟩
      exact ⟨next, drawn, between, first, later⟩

/-- A list gives the numbers that it begins with, and what is behind them is left. -/
theorem gives_listed {us block : List α} {n : Nat} {t : Listed α} :
    Gives (⟨us, n⟩ : Listed α) block t ↔
      us = block ++ t.left ∧ t.drawn = n + block.length := by
  induction block generalizing us n with
  | nil =>
    constructor
    · rintro rfl
      exact ⟨rfl, rfl⟩
    · rintro ⟨rfl, drawn⟩
      exact congrArg (Listed.mk t.left) drawn.symm
  | cons u block ih =>
    constructor
    · rintro ⟨between, drawn, later⟩
      cases us with
      | nil => cases drawn
      | cons v rest =>
        cases drawn
        obtain ⟨rfl, count⟩ := ih.mp later
        exact ⟨rfl, count.trans (Nat.add_right_comm n 1 block.length)⟩
    · rintro ⟨rfl, count⟩
      exact ⟨⟨block ++ t.left, n + 1⟩, rfl,
        ih.mpr ⟨rfl, count.trans (Nat.add_right_comm n block.length 1)⟩⟩

/-- So what it has given is its front, up to where it was left. -/
theorem front_of_gives {us block : List α} {n : Nat} {t : Listed α}
    (given : Gives (⟨us, n⟩ : Listed α) block t) :
    ∃ k ≤ us.length, t = ⟨us.drop k, n + k⟩ ∧ us.take k = block := by
  obtain ⟨rfl, count⟩ := gives_listed.mp given
  refine ⟨block.length, by simp, ?_, List.take_left⟩
  rw [List.drop_left, ← count]

/-- A shorter front of two blocks ends inside the first, or behind it inside the second. -/
theorem front_append_cases {front xs ys : List α} (isFront : front <+: xs ++ ys)
    (shorter : front.length < (xs ++ ys).length) :
    (front <+: xs ∧ front.length < xs.length) ∨
      ∃ later, front = xs ++ later ∧ later <+: ys ∧ later.length < ys.length := by
  rcases Nat.lt_or_ge front.length xs.length with inside | behind
  · have before := List.prefix_of_prefix_length_le isFront (List.prefix_append xs ys)
    exact .inl ⟨before (Nat.le_of_lt inside), inside⟩
  · obtain ⟨later, rfl⟩ :=
      List.prefix_of_prefix_length_le (List.prefix_append xs ys) isFront behind
    refine .inr ⟨later, rfl, (List.prefix_append_right_inj xs).mp isFront, ?_⟩
    rw [List.length_append, List.length_append] at shorter
    omega

end Streams

/-! ## §2 Blocks -/

namespace Sampler

variable {α ε β γ : Type} {dry : ε} {m : AnySampler α ε β} {xs ys : List α} {b : β} {c : γ}

/-- The sampler takes exactly these numbers for its value: where a source begins with them it gives
the value and leaves the source behind them, and where a source ends before the last of them it
has run dry. -/
structure Takes (dry : ε) (m : AnySampler α ε β) (block : List α) (b : β) : Prop where
  returns : ∀ {σ : Type} [UniformSource σ α] {s t : σ}, Gives s block t → m σ s = (.ok b, t)
  runsDry : ∀ {σ : Type} [UniformSource σ α] {s t : σ} {front : List α}, front <+: block →
    front.length < block.length → Gives s front t → UniformSource.draw? t = none →
    m σ s = (.error dry, t)

theorem takes_done : Takes dry (fun _ _ => done b : AnySampler α ε β) [] b where
  returns := by
    rintro σ _ s t rfl
    rfl
  runsDry _ shorter := absurd shorter (Nat.not_lt_zero _)

theorem takes_uniform (u : α) :
    Takes .exhausted (fun _ _ => uniform : AnySampler α (SamplingError α) α) [u] u where
  returns := by
    rintro σ _ s t ⟨between, drawn, rfl⟩
    unfold uniform
    rw [drawn]
  runsDry := by
    intro σ _ s t front _ shorter given none
    have empty : front = [] := List.length_eq_zero_iff.mp (Nat.lt_one_iff.mp shorter)
    subst empty
    cases given
    unfold uniform
    rw [none]

/-- The block of a sequence is that of its first part with that of its second part behind it. -/
theorem Takes.andThen {f : β → AnySampler α ε γ} (first : Takes dry m xs b)
    (second : Takes dry (f b) ys c) :
    Takes dry (fun σ _ => andThen (m σ) fun b => f b σ) (xs ++ ys) c where
  returns := by
    intro σ _ s t given
    obtain ⟨between, front, later⟩ := gives_append.mp given
    rw [andThen_of_ok (first.returns front)]
    exact second.returns later
  runsDry := by
    intro σ _ s t front isFront shorter given none
    rcases front_append_cases isFront shorter with ⟨inside, shorter⟩ | ⟨later, rfl, inside, shorter⟩
    · unfold Sampler.andThen
      rw [first.runsDry inside shorter given none]
    · obtain ⟨between, front, given⟩ := gives_append.mp given
      rw [andThen_of_ok (first.returns front)]
      exact second.runsDry inside shorter given none

/-! ## §3 Samplers -/

/-- Whenever the sampler gives a value, it has taken a block of its source for it. -/
def InBlocks (dry : ε) (m : AnySampler α ε β) : Prop :=
  ∀ (σ : Type) [UniformSource σ α] (s t : σ) (b : β), m σ s = (.ok b, t) →
    ∃ block, Gives s block t ∧ Takes dry m block b

/-- Out of a list, a sampler that draws in blocks takes its front for a value. -/
theorem InBlocks.listed (inBlocks : InBlocks dry m) {us : List α} {n : Nat} {t : Listed α}
    (ran : m (Listed α) ⟨us, n⟩ = (.ok b, t)) :
    ∃ k ≤ us.length, t = ⟨us.drop k, n + k⟩ ∧ Takes dry m (us.take k) b := by
  obtain ⟨block, given, taken⟩ := inBlocks (Listed α) ⟨us, n⟩ t b ran
  obtain ⟨k, within, left, rfl⟩ := front_of_gives given
  exact ⟨k, within, left, taken⟩

theorem inBlocks_lift (outcome : Except ε β) :
    InBlocks dry (fun _ _ => lift outcome : AnySampler α ε β) := by
  intro σ _ s t b ran
  cases outcome with
  | error e => cases ran
  | ok _ =>
    cases ran
    exact ⟨[], rfl, takes_done⟩

theorem inBlocks_uniform :
    InBlocks .exhausted (fun _ _ => uniform : AnySampler α (SamplingError α) α) := by
  intro σ _ s t u ran
  dsimp only [uniform] at ran
  split at ran
  · next drawn =>
    cases ran
    exact ⟨[u], ⟨t, drawn, rfl⟩, takes_uniform u⟩
  · cases ran

theorem inBlocks_andThen {f : β → AnySampler α ε γ} (first : InBlocks dry m)
    (second : ∀ b, InBlocks dry (f b)) :
    InBlocks dry (fun σ _ => andThen (m σ) fun b => f b σ) := by
  intro σ _ s t c ran
  obtain ⟨b, between, front, later⟩ := andThen_eq_ok ran
  obtain ⟨xs, given, taken⟩ := first σ s between b front
  obtain ⟨ys, givenLater, takenLater⟩ := second b σ between t c later
  exact ⟨xs ++ ys, gives_append.mpr ⟨between, given, givenLater⟩, taken.andThen takenLater⟩

/-- **A loop takes the blocks of its rounds**, one behind the other. -/
theorem inBlocks_untilAccepted {round : AnySampler α ε (Option β)}
    (shrinks : ∀ (σ : Type) [UniformSource σ α], Shrinking (round σ))
    (each : InBlocks dry round) :
    InBlocks dry (fun σ _ => untilAccepted (round σ) (shrinks σ)) := by
  -- Each loop is unrolled once, so that its block is that of a sequence.
  have unrolled : (fun σ [UniformSource σ α] => untilAccepted (round σ) (shrinks σ)) =
      (fun σ _ => andThen (round σ) fun found =>
        acceptedOr (untilAccepted (round σ) (shrinks σ)) found : AnySampler α ε β) := by
    funext σ _
    exact untilAccepted_eq (shrinks σ)
  intro σ _ s t b ran
  dsimp only at ran
  fun_induction untilAccepted (round σ) (shrinks σ) s with
  | case1 s e s' outcome => cases ran
  | case2 s b' s' outcome =>
    cases ran
    obtain ⟨block, given, taken⟩ := each σ s t (some b) outcome
    refine ⟨block ++ [], by rwa [List.append_nil], ?_⟩
    rw [unrolled]
    exact taken.andThen takes_done
  | case3 s s' outcome ih =>
    obtain ⟨block, given, taken⟩ := each σ s s' none outcome
    obtain ⟨later, givenLater, takenLater⟩ := ih ran
    refine ⟨block ++ later, gives_append.mpr ⟨s', given, givenLater⟩, ?_⟩
    rw [unrolled]
    exact taken.andThen takenLater

/-- **Samplers made of draws and of steps between them draw in blocks.** -/
theorem Built.inBlocks {m : AnySampler α (SamplingError α) β} (built : Built m) :
    InBlocks .exhausted m := by
  induction built with
  | uniform => exact inBlocks_uniform
  | lift => exact inBlocks_lift _
  | andThen _ _ first second => exact inBlocks_andThen first second
  | untilAccepted shrinks _ each => exact inBlocks_untilAccepted shrinks each

end Sampler

namespace Distribution

open Sampler

/-- So do samples of estimates; bounds out of order have none. -/
theorem inBlocks_sample {α : Type} [Scalar α] (b : Distribution α) :
    InBlocks .exhausted (fun _ _ => b.sample : AnySampler α (SamplingError α) α) := by
  cases ordered : le b.low b.mode && le b.mode b.high with
  | true => exact (built_sample ordered).inBlocks
  | false =>
    simp only [sample, ordered, Bool.not_false, if_true]
    exact inBlocks_lift _

end Distribution

end BusinessCase
