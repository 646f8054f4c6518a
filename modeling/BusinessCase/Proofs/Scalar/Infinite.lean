/-
BusinessCase.Proofs.Scalar.Infinite — sums with terms that are not finite.

A term that is not finite stays out of the partial sums, so what such terms add
up to can be told from them alone: opposite infinities are no number. A sum has
no value in two cases only, where finite terms run beyond the doubles, and
where the terms hold opposite infinities.

  §1 Additions — what adding does with what is not finite.
  §2 Opposed   — infinities of both signs, `isNaN_foldl`.
  §3 Terms     — what one term adds to a sum.
  §4 Sums      — `sum_exact`.
-/
import BusinessCase.Proofs.Scalar.Order
import BusinessCase.Scalar.ExactSum

namespace BusinessCase.ExactSum

open Float.Model

variable {x y : Float} {xs : List Float} {s t : State} {u v : UnpackedFloat}

/-! ## §1 Additions -/

/-- What is not finite is packed without loss. -/
theorem unpack_pack_of_not_isFinite (h : u.isFinite = false) : (pack u).unpack = u := by
  cases u with
  | notANumber => rfl
  | infinity sign => cases sign <;> rfl
  | zero | finite => cases h

theorem isFinite_add_unpacked (h : u.isFinite = false ∨ v.isFinite = false) :
    (UnpackedFloat.add Format.binary64 u v).isFinite = false := by
  cases u with
  | notANumber => rfl
  | infinity p =>
    cases v with
    | infinity q => cases p <;> cases q <;> rfl
    | notANumber | zero | finite => rfl
  | zero | finite =>
    cases v with
    | notANumber | infinity => rfl
    | zero | finite => rcases h with none | none <;> cases none

/-- Unless both addends are finite, they are added without rounding. -/
theorem unpack_add (h : x.isFinite = false ∨ y.isFinite = false) : (x + y).toModel.unpack =
    UnpackedFloat.add Format.binary64 x.toModel.unpack y.toModel.unpack :=
  unpack_pack_of_not_isFinite (isFinite_add_unpacked h)

/-- What is not finite is not made finite by an addend. -/
theorem isFinite_add (h : x.isFinite = false ∨ y.isFinite = false) : (x + y).isFinite = false := by
  change (x + y).toModel.unpack.isFinite = false
  rw [unpack_add h]
  exact isFinite_add_unpacked h

theorem twoSum_fst (x y : Float) : (twoSum x y).1 = if x.abs < y.abs then y + x else x + y := by
  by_cases smaller : x.abs < y.abs <;> simp [twoSum, smaller]

theorem isFinite_push (h : x.isFinite = false) (partials : List Float) :
    (push x partials).2.isFinite = false := by
  induction partials generalizing x with
  | nil => exact h
  | cons y rest ih =>
    have high : (twoSum x y).1.isFinite = false := by
      rw [twoSum_fst]
      split
      · exact isFinite_add (.inr h)
      · exact isFinite_add (.inl h)
    exact ih high

/-! ## §2 Opposed -/

/-- Infinities of both signs are there. -/
def Opposed (xs : List Float) : Prop :=
  (∃ x ∈ xs, x.isInf ∧ 0 < x) ∧ ∃ x ∈ xs, x.isInf ∧ x < 0

/-- An infinity is told by its side of zero. -/
theorem isInf_iff : ((x.isInf ∧ 0 < x) ↔ x.toModel.unpack = .infinity .positive) ∧
    ((x.isInf ∧ x < 0) ↔ x.toModel.unpack = .infinity .negative) := by
  change ((x.toModel.unpack.isInf = true ∧
      decide (UnpackedFloat.compare (.zero .positive) x.toModel.unpack == some .lt) = true) ↔ _) ∧
    ((x.toModel.unpack.isInf = true ∧
      decide (UnpackedFloat.compare x.toModel.unpack (.zero .positive) == some .lt) = true) ↔ _)
  generalize x.toModel.unpack = u
  cases u with
  | infinity sign =>
    cases sign with
    | positive =>
      exact ⟨⟨fun _ => rfl, fun _ => ⟨rfl, rfl⟩⟩,
        fun h => absurd h.2 Bool.false_ne_true, fun same => by cases same⟩
    | negative =>
      exact ⟨⟨fun h => absurd h.2 Bool.false_ne_true, fun same => by cases same⟩,
        fun _ => rfl, fun _ => ⟨rfl, rfl⟩⟩
  | notANumber | zero | finite =>
    exact ⟨⟨fun h => absurd h.1 Bool.false_ne_true, fun same => by cases same⟩,
      fun h => absurd h.1 Bool.false_ne_true, fun same => by cases same⟩

/-- An infinity of the sign is there. -/
def HasInfinity (sign : UnpackedFloat.Sign) (xs : List Float) : Prop :=
  ∃ x ∈ xs, x.toModel.unpack = .infinity sign

theorem opposed_iff : Opposed xs ↔ HasInfinity .positive xs ∧ HasInfinity .negative xs := by
  simp only [Opposed, HasInfinity, isInf_iff]

theorem hasInfinity_cons {sign : UnpackedFloat.Sign} :
    HasInfinity sign (x :: xs) ↔ x.toModel.unpack = .infinity sign ∨ HasInfinity sign xs := by
  simp [HasInfinity]

/-- What is no number stays no number. -/
theorem isNaN_foldl_of_isNaN (h : x.isNaN = true) (ys : List Float) :
    (ys.foldl (· + ·) x).isNaN = true := by
  induction ys generalizing x with
  | nil => exact h
  | cons y rest ih =>
    apply ih
    change (x + y).toModel.unpack.isNaN = true
    have none : x.toModel.unpack = .notANumber := by
      change x.toModel.unpack.isNaN = true at h
      revert h
      generalize x.toModel.unpack = u
      intro h
      cases u with
      | notANumber => rfl
      | infinity | zero | finite => exact absurd h Bool.false_ne_true
    have kept : x.isFinite = false := by
      change x.toModel.unpack.isFinite = false
      rw [none]
      rfl
    rw [unpack_add (.inl kept), none]
    rfl

/-- **Infinities add up to no number if and only if they are opposed.** -/
theorem isNaN_foldl {ys : List Float}
    (infinite : ∀ y ∈ ys, ∃ sign, y.toModel.unpack = .infinity sign)
    (start : ∃ sign, x.toModel.unpack = .zero sign ∨ x.toModel.unpack = .infinity sign) :
    (ys.foldl (· + ·) x).isNaN = true ↔ Opposed (x :: ys) := by
  rw [opposed_iff]
  induction ys generalizing x with
  | nil =>
    change x.toModel.unpack.isNaN = true ↔ _
    obtain ⟨sign, zero | infinity⟩ := start
    · have number : (UnpackedFloat.zero sign).isNaN = false := rfl
      simp [HasInfinity, zero, number]
    · have number : (UnpackedFloat.infinity sign).isNaN = false := rfl
      rw [infinity, number]
      cases sign <;> simp [HasInfinity, infinity]
  | cons y rest ih =>
    obtain ⟨⟨q, isInfinity⟩, others⟩ := List.forall_mem_cons.mp infinite
    have kept : y.isFinite = false := by
      change y.toModel.unpack.isFinite = false
      rw [isInfinity]
      rfl
    have sum := unpack_add (x := x) (.inr kept)
    rw [List.foldl_cons]
    obtain ⟨p, zero | infinity⟩ := start
    · rw [zero, isInfinity] at sum
      change (x + y).toModel.unpack = .infinity q at sum
      rw [ih others ⟨q, .inr sum⟩]
      simp only [hasInfinity_cons, sum, zero, isInfinity]
      simp
    · rw [infinity, isInfinity] at sum
      by_cases same : p = q
      · subst same
        have again : (x + y).toModel.unpack = .infinity p := by
          rw [sum]
          cases p <;> rfl
        rw [ih others ⟨p, .inr again⟩]
        simp only [hasInfinity_cons, again, infinity, isInfinity]
        tauto
      · have none : (x + y).isNaN = true := by
          change (x + y).toModel.unpack.isNaN = true
          rw [sum]
          cases p <;> cases q <;> first | rfl | exact absurd rfl same
        simp only [isNaN_foldl_of_isNaN none, hasInfinity_cons, infinity, isInfinity]
        cases p <;> cases q <;> simp at same ⊢

/-! ## §3 Terms -/

theorem beq_zero_of_not_isFinite (h : x.isFinite = false) : (x == 0.0) = false := by
  change (UnpackedFloat.compare x.toModel.unpack (.zero .positive) == some .eq) = false
  change x.toModel.unpack.isFinite = false at h
  revert h
  generalize x.toModel.unpack = u
  intro infinite
  cases u with
  | infinity sign => cases sign <;> rfl
  | notANumber => rfl
  | zero | finite => exact absurd infinite.symm Bool.false_ne_true

/-- A finite term leaves alone what is kept apart. -/
theorem special_add_finite (finite : x.isFinite = true) (h : s.add x = .ok t) :
    t.special = s.special := by
  unfold State.add at h
  dsimp only at h
  split at h
  · cases h
    rfl
  · split at h
    · cases h
      rfl
    · cases h

/-- A term that is not finite is kept apart. -/
theorem add_of_not_isFinite (infinite : x.isFinite = false) (s : State) :
    s.add x = .ok { partials := [], special := s.special + x } := by
  have last := isFinite_push infinite s.partials
  unfold State.add
  dsimp only
  rw [beq_zero_of_not_isFinite last, last, infinite]
  rfl

theorem add_error {e : ArithmeticError} (h : s.add x = .error e) : e = .overflow := by
  unfold State.add at h
  dsimp only at h
  split at h
  · cases h
  · split at h
    · cases h
    · split at h
      · cases h
        rfl
      · cases h

/-! ## §4 Sums -/

/-- The terms that are kept apart. -/
def infiniteTerms (xs : List Float) : List Float := xs.filter fun x => !x.isFinite

theorem special_foldlM (h : xs.foldlM State.add s = .ok t) :
    t.special = (infiniteTerms xs).foldl (· + ·) s.special := by
  induction xs generalizing s with
  | nil =>
    cases h
    rfl
  | cons x rest ih =>
    rw [List.foldlM_cons] at h
    cases added : s.add x with
    | error e =>
      rw [added] at h
      cases h
    | ok after =>
      rw [added] at h
      rw [ih h]
      cases finite : x.isFinite with
      | true => simp [infiniteTerms, finite, special_add_finite finite added]
      | false =>
        rw [add_of_not_isFinite finite] at added
        cases added
        simp [infiniteTerms, finite]

theorem foldlM_error {e : ArithmeticError} (h : xs.foldlM State.add s = .error e) :
    e = .overflow := by
  induction xs generalizing s with
  | nil => cases h
  | cons x rest ih =>
    rw [List.foldlM_cons] at h
    cases added : s.add x with
    | error fault =>
      rw [added] at h
      cases h
      exact add_error added
    | ok after =>
      rw [added] at h
      exact ih h

/-- A sum is worked out from its state unless what is kept apart is no number. -/
theorem total_eq (s : State) :
    (s.special.isNaN = true → s.total = .error .oppositeInfinities) ∧
      (s.special.isNaN = false → ∃ r, s.total = .ok r) := by
  unfold State.total
  constructor
  · intro none
    have infinite : s.special.isFinite = false := by
      rw [← Bool.not_eq_true]
      intro finite
      exact Bool.false_ne_true ((isNaN_of_isFinite finite).symm.trans none)
    have other : (s.special != 0.0) = true := by
      rw [bne, beq_zero_of_not_isFinite infinite]
      rfl
    rw [if_pos other, if_pos none]
  · intro number
    rw [number]
    split
    · exact ⟨_, rfl⟩
    · split
      · exact ⟨_, rfl⟩
      · exact ⟨_, rfl⟩

/-- Finite terms run beyond the doubles, even if the sum does not. -/
def RunsOver (xs : List Float) : Prop := xs.foldlM State.add {} = .error .overflow

/-- What is kept apart of numbers is no number if and only if they are opposed. -/
theorem isNaN_special (numbers : ∀ x ∈ xs, x.isNaN = false) (h : xs.foldlM State.add {} = .ok t) :
    t.special.isNaN = true ↔ Opposed xs := by
  have isInfinity : ∀ y ∈ infiniteTerms xs, ∃ sign, y.toModel.unpack = .infinity sign := by
    intro y member
    obtain ⟨within, infinite⟩ := List.mem_filter.mp member
    have number : y.toModel.unpack.isNaN = false := numbers y within
    have kept : (!y.toModel.unpack.isFinite) = true := infinite
    revert number kept
    generalize y.toModel.unpack = u
    intro number kept
    cases u with
    | infinity sign => exact ⟨sign, rfl⟩
    | notANumber => exact absurd number.symm Bool.false_ne_true
    | zero | finite => exact absurd kept Bool.false_ne_true
  have zero : (0.0 : Float).toModel.unpack = .zero .positive := rfl
  have same (sign : UnpackedFloat.Sign) :
      HasInfinity sign (0.0 :: infiniteTerms xs) ↔ HasInfinity sign xs := by
    rw [hasInfinity_cons, zero]
    constructor
    · rintro (none | ⟨y, member, infinity⟩)
      · cases none
      · exact ⟨y, (List.mem_filter.mp member).1, infinity⟩
    · rintro ⟨y, member, infinity⟩
      have kept : y.isFinite = false := by
        change y.toModel.unpack.isFinite = false
        rw [infinity]
        rfl
      exact .inr ⟨y, List.mem_filter.mpr ⟨member, by simp [kept]⟩, infinity⟩
  rw [special_foldlM h, isNaN_foldl isInfinity ⟨.positive, .inl zero⟩, opposed_iff, opposed_iff,
    same, same]

/-- **A sum has a value unless its terms run over or are opposed.** -/
theorem sum_exact (numbers : ∀ x ∈ xs, x.isNaN = false) :
    (sum xs = .error .overflow ↔ RunsOver xs) ∧
      (sum xs = .error .oppositeInfinities ↔ ¬ RunsOver xs ∧ Opposed xs) ∧
      ((∃ r, sum xs = .ok r) ↔ ¬ RunsOver xs ∧ ¬ Opposed xs) := by
  cases folded : xs.foldlM State.add {} with
  | error e =>
    obtain rfl := foldlM_error folded
    have runs : RunsOver xs := folded
    have none : sum xs = .error .overflow := by
      unfold sum
      rw [folded]
      rfl
    simp [none, runs]
  | ok t =>
    have room : ¬ RunsOver xs := by
      intro runs
      cases folded.symm.trans runs
    have last : sum xs = t.total := by
      unfold sum
      rw [folded]
      rfl
    rw [last]
    by_cases opposed : Opposed xs
    · have none := (total_eq t).1 ((isNaN_special numbers folded).mpr opposed)
      simp [none, room, opposed]
    · have number : t.special.isNaN = false := by
        rw [← Bool.not_eq_true]
        exact fun none => opposed ((isNaN_special numbers folded).mp none)
      obtain ⟨r, value⟩ := (total_eq t).2 number
      simp [value, room, opposed]

end BusinessCase.ExactSum
