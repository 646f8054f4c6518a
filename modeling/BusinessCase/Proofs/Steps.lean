/-
BusinessCase.Proofs.Steps — steps that can fail.

Steps that follow each other end with a result if each of them does, and a list
of steps ends with the list of all results; else the first failure counts.

  §1 Results  — what a whole gives tells what its parts give.
  §2 Lists    — steps that are done for every item of a list.
  §3 Failures — `FailsOnly`, the failures that a step allows.
  §4 Pairs    — `Agrees`, two steps that end alike.
-/
import Mathlib.Data.List.Basic

namespace BusinessCase

variable {ε ε' β γ δ : Type}

/-! ## §1 Results -/

theorem bind_of_eq_ok {x : Except ε β} {made : β} (done : x = .ok made) (f : β → Except ε γ) :
    x >>= f = f made := by
  rw [done]
  rfl

theorem bind_eq_ok {x : Except ε β} {f : β → Except ε γ} {result : γ}
    (done : x >>= f = .ok result) : ∃ made, x = .ok made ∧ f made = .ok result := by
  cases x with
  | error e => cases done
  | ok made => exact ⟨made, rfl, done⟩

/-- Steps that fail do so at the first of them or behind it. -/
theorem bind_eq_error {x : Except ε β} {f : β → Except ε γ} {e : ε} (failed : x >>= f = .error e) :
    x = .error e ∨ ∃ made, x = .ok made ∧ f made = .error e := by
  cases x with
  | error fault => exact .inl (congrArg Except.error (Except.error.inj failed))
  | ok made => exact .inr ⟨made, rfl, failed⟩

theorem map_eq_ok {x : Except ε β} {f : β → γ} {result : γ} (done : x.map f = .ok result) :
    ∃ made, x = .ok made ∧ f made = result := by
  cases x with
  | error e => cases done
  | ok made => exact ⟨made, rfl, Except.ok.inj done⟩

theorem mapError_eq_ok {x : Except ε β} {f : ε → ε'} {result : β}
    (done : x.mapError f = .ok result) : x = .ok result := by
  cases x with
  | error e => cases done
  | ok made => exact congrArg Except.ok (Except.ok.inj done)

theorem mapError_eq_error {x : Except ε β} {f : ε → ε'} {e : ε'}
    (failed : x.mapError f = .error e) : ∃ fault, x = .error fault ∧ f fault = e := by
  cases x with
  | error fault => exact ⟨fault, rfl, Except.error.inj failed⟩
  | ok made => cases failed

/-! ## §2 Lists -/

/-- Steps that all succeed give the list of their results. -/
theorem mapM_eq_ok_filterMap {f : β → Except ε γ} {g : β → Option γ} {items : List β}
    (agree : ∀ item ∈ items, ∃ made, f item = .ok made ∧ g item = some made) :
    items.mapM f = .ok (items.filterMap g) := by
  induction items with
  | nil => rfl
  | cons item rest ih =>
    obtain ⟨⟨made, done, same⟩, later⟩ := List.forall_mem_cons.mp agree
    rw [List.mapM_cons, done, ih later, List.filterMap_cons, same]
    rfl

theorem mapM_eq_ok_map {f : β → Except ε γ} {g : β → γ} {items : List β}
    (agree : ∀ item ∈ items, f item = .ok (g item)) : items.mapM f = .ok (items.map g) := by
  rw [← List.filterMap_eq_map]
  exact mapM_eq_ok_filterMap fun item member => ⟨g item, agree item member, rfl⟩

/-- A list of steps succeeds if each of them does. -/
theorem exists_mapM {f : β → Except ε γ} {items : List β}
    (complete : ∀ item ∈ items, ∃ made, f item = .ok made) :
    ∃ results, items.mapM f = .ok results := by
  induction items with
  | nil => exact ⟨[], rfl⟩
  | cons item rest ih =>
    obtain ⟨⟨made, first⟩, later⟩ := List.forall_mem_cons.mp complete
    obtain ⟨others, done⟩ := ih later
    exact ⟨made :: others, by rw [List.mapM_cons, first, done]; rfl⟩

/-- The first step and all others, where a list of steps succeeds. -/
theorem mapM_cons_eq_ok {f : β → Except ε γ} {item : β} {rest : List β} {results : List γ}
    (done : (item :: rest).mapM f = .ok results) :
    ∃ made more, f item = .ok made ∧ rest.mapM f = .ok more ∧ results = made :: more := by
  rw [List.mapM_cons] at done
  obtain ⟨made, first, done⟩ := bind_eq_ok done
  obtain ⟨more, others, done⟩ := bind_eq_ok done
  exact ⟨made, more, first, others, (Except.ok.inj done).symm⟩

theorem length_of_mapM {f : β → Except ε γ} {items : List β} {results : List γ}
    (done : items.mapM f = .ok results) : results.length = items.length := by
  induction items generalizing results with
  | nil =>
    cases done
    rfl
  | cons item rest ih =>
    obtain ⟨made, more, -, others, rfl⟩ := mapM_cons_eq_ok done
    exact congrArg Nat.succ (ih others)

/-- Every result is made from an item. -/
theorem exists_of_mem_mapM {f : β → Except ε γ} {items : List β} {results : List γ}
    (done : items.mapM f = .ok results) {result : γ} (member : result ∈ results) :
    ∃ item ∈ items, f item = .ok result := by
  induction items generalizing results with
  | nil =>
    cases done
    cases member
  | cons item rest ih =>
    obtain ⟨made, more, first, others, rfl⟩ := mapM_cons_eq_ok done
    rcases List.mem_cons.mp member with rfl | later
    · exact ⟨item, List.mem_cons_self, first⟩
    · obtain ⟨source, among, same⟩ := ih others later
      exact ⟨source, List.mem_cons_of_mem item among, same⟩

/-- The result at a place is made from the item at that place. -/
theorem getElem?_of_mapM {f : β → Except ε γ} {items : List β} {results : List γ}
    (done : items.mapM f = .ok results) {place : ℕ} {item : β} (there : items[place]? = some item) :
    ∃ made, results[place]? = some made ∧ f item = .ok made := by
  induction items generalizing results place with
  | nil => cases there
  | cons first rest ih =>
    obtain ⟨made, more, own, others, rfl⟩ := mapM_cons_eq_ok done
    cases place with
    | zero =>
      cases there
      exact ⟨made, rfl, own⟩
    | succ place => exact ih others there

/-- Other steps give the same results if each of them does. -/
theorem mapM_eq_ok_imp {f : β → Except ε γ} {g : β → Except ε' γ} {items : List β}
    {results : List γ} (agree : ∀ item ∈ items, ∀ made, f item = .ok made → g item = .ok made)
    (done : items.mapM f = .ok results) : items.mapM g = .ok results := by
  induction items generalizing results with
  | nil =>
    cases done
    rfl
  | cons item rest ih =>
    obtain ⟨made, more, first, others, rfl⟩ := mapM_cons_eq_ok done
    obtain ⟨own, later⟩ := List.forall_mem_cons.mp agree
    rw [List.mapM_cons, own made first, ih later others]
    rfl

/-- Two lists of steps for the same items have results that belong together. -/
theorem forall₂_of_mapM {f : β → Except ε γ} {g : β → Except ε' δ} {items : List β}
    {results : List γ} {results' : List δ} {R : γ → δ → Prop}
    (agree : ∀ item ∈ items, ∀ made made', f item = .ok made → g item = .ok made' → R made made')
    (done : items.mapM f = .ok results) (done' : items.mapM g = .ok results') :
    List.Forall₂ R results results' := by
  induction items generalizing results results' with
  | nil =>
    cases done
    cases done'
    exact .nil
  | cons item rest ih =>
    obtain ⟨made, more, first, others, rfl⟩ := mapM_cons_eq_ok done
    obtain ⟨made', more', first', others', rfl⟩ := mapM_cons_eq_ok done'
    obtain ⟨own, later⟩ := List.forall_mem_cons.mp agree
    exact .cons (own made made' first first') (ih later others others')

/-- Every item of a list of steps that succeeds has a result. -/
theorem exists_of_mapM {f : β → Except ε γ} {items : List β} {results : List γ}
    (done : items.mapM f = .ok results) : ∀ item ∈ items, ∃ made, f item = .ok made := by
  induction items generalizing results with
  | nil => simp
  | cons item rest ih =>
    obtain ⟨made, more, first, others, rfl⟩ := mapM_cons_eq_ok done
    exact List.forall_mem_cons.mpr ⟨⟨made, first⟩, ih others⟩

/-- Work that is done part by part fails where the first part fails, and gives all results. -/
theorem mapM_flatMap (parts : List β) (items : β → List γ)
    (f : γ → Except ε δ) (wrap : ε → ε') :
    (parts.mapM fun part => ((items part).mapM f).mapError wrap).map List.flatten =
      ((parts.flatMap items).mapM f).mapError wrap := by
  induction parts with
  | nil => rfl
  | cons part rest ih =>
    rw [List.mapM_cons, List.flatMap_cons, List.mapM_append]
    cases (items part).mapM f with
    | error e => rfl
    | ok first =>
      have others := ih
      cases done : rest.mapM fun part => ((items part).mapM f).mapError wrap <;>
        cases flat : (rest.flatMap items).mapM f <;> rw [done, flat] at others <;> cases others
      · rfl
      · rfl

/-! ## §3 Failures -/

/-- If the step fails, then with such an error. -/
def FailsOnly (allowed : ε → Prop) (x : Except ε β) : Prop := ∀ e, x = .error e → allowed e

namespace FailsOnly

variable {allowed : ε → Prop}

theorem ok (made : β) : FailsOnly allowed (.ok made : Except ε β) := by
  rintro _ ⟨⟩

theorem error {e : ε} (isAllowed : allowed e) : FailsOnly allowed (.error e : Except ε β) := by
  rintro _ ⟨⟩
  exact isAllowed

theorem bind {x : Except ε β} {f : β → Except ε γ} (first : FailsOnly allowed x)
    (next : ∀ made, x = .ok made → FailsOnly allowed (f made)) : FailsOnly allowed (x >>= f) := by
  intro e failed
  cases x with
  | error fault => exact first e (congrArg Except.error (Except.error.inj failed))
  | ok made => exact next made rfl e failed

theorem map {x : Except ε β} (step : FailsOnly allowed x) (f : β → γ) :
    FailsOnly allowed (x.map f) := by
  intro e failed
  cases x with
  | error fault => exact step e (congrArg Except.error (Except.error.inj failed))
  | ok made => cases failed

theorem mapError {x : Except ε β} {f : ε → ε'} {allowed : ε' → Prop}
    (step : FailsOnly (fun e => allowed (f e)) x) : FailsOnly allowed (x.mapError f) := by
  intro e failed
  obtain ⟨fault, first, rfl⟩ := mapError_eq_error failed
  exact step fault first

theorem mapM {f : β → Except ε γ} {items : List β}
    (steps : ∀ item ∈ items, FailsOnly allowed (f item)) : FailsOnly allowed (items.mapM f) := by
  induction items with
  | nil => exact ok []
  | cons item rest ih =>
    obtain ⟨first, others⟩ := List.forall_mem_cons.mp steps
    rw [List.mapM_cons]
    exact first.bind fun made _ => (ih others).bind fun more _ => ok (made :: more)

end FailsOnly

/-! ## §4 Pairs -/

/-- Two steps fail with the same error, or their results are related. -/
inductive Agrees (related : β → γ → Prop) : Except ε β → Except ε γ → Prop where
  | error (e : ε) : Agrees related (.error e) (.error e)
  | ok {made : β} {other : γ} (h : related made other) : Agrees related (.ok made) (.ok other)

namespace Agrees

variable {β' γ' : Type} {related : β → γ → Prop} {related' : β' → γ' → Prop} {x : Except ε β}
  {y : Except ε γ}

theorem bind {f : β → Except ε β'} {g : γ → Except ε γ'} (first : Agrees related x y)
    (next : ∀ made other, related made other → Agrees related' (f made) (g other)) :
    Agrees related' (x >>= f) (y >>= g) := by
  cases first with
  | error e => exact error e
  | ok h => exact next _ _ h

theorem map_eq {f : β → δ} {g : γ → δ} (agrees : Agrees related x y)
    (same : ∀ made other, related made other → f made = g other) : x.map f = y.map g := by
  cases agrees with
  | error => rfl
  | ok h => exact congrArg Except.ok (same _ _ h)

theorem eq {x y : Except ε β} {related : β → β → Prop} (agrees : Agrees related x y)
    (same : ∀ made other, related made other → made = other) : x = y := by
  cases agrees with
  | error => rfl
  | ok h => exact congrArg Except.ok (same _ _ h)

end Agrees

end BusinessCase
