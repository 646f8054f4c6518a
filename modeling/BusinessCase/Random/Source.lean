/-
BusinessCase.Random.Source — where uniform numbers come from.

A source hands out one number at a time and cannot do so for ever: every draw
leaves fewer draws. Loops that draw until something is accepted end for that
reason. A generator is given as many draws as its state has bits for, which no
run comes near.

  §1 Class       — `UniformSource`.
  §2 Lists       — `Listed`, numbers written down beforehand.
  §3 Congruences — `Congruential`, a 64-bit linear congruential generator.
-/

namespace BusinessCase

/-! ## §1 Class -/

/-- Sources of numbers of type `α` with states of type `σ`. -/
class UniformSource (σ : Type) (α : outParam Type) where
  /-- The next number and the state after it, unless the source has run out. -/
  draw? : σ → Option (α × σ)
  /-- A bound on the draws that are left. -/
  remaining : σ → Nat
  /-- A draw lowers the bound. -/
  remaining_lt : ∀ {s s' : σ} {u : α}, draw? s = some (u, s') → remaining s' < remaining s
  /-- The draws made so far. -/
  drawn : σ → Nat

/-! ## §2 Lists -/

/-- Numbers that are still to come, and how many came before. -/
structure Listed (α : Type) where
  left : List α
  drawn : Nat := 0

instance {α : Type} : UniformSource (Listed α) α where
  draw? s := match s.left with
    | [] => none
    | u :: rest => some (u, { left := rest, drawn := s.drawn + 1 })
  remaining s := s.left.length
  remaining_lt := by
    intro s s' u h
    split at h
    · cases h
    · rename_i left
      cases h
      simp [left]
  drawn := Listed.drawn

/-! ## §3 Congruences -/

/-- The state of a linear congruential generator modulo `2 ^ 64`. -/
structure Congruential where
  state : UInt64
  drawn : Nat := 0

/-- The number of states, the 64th power of two; no state comes back sooner. -/
def Congruential.period : Nat := 0x10000000000000000

def Congruential.step (state : UInt64) : UInt64 :=
  state * 6364136223846793005 + 1442695040888963407

/-- The upper 53 bits of a word as a number from zero to below one. -/
def unitInterval (word : Nat) : Float := Float.ofNat (word >>> 11) / 9007199254740992.0

instance : UniformSource Congruential Float where
  draw? s :=
    if s.drawn < Congruential.period then
      let state := Congruential.step s.state
      some (unitInterval state.toNat, { state, drawn := s.drawn + 1 })
    else none
  remaining s := Congruential.period - s.drawn
  remaining_lt := by
    intro s s' u h
    split at h
    · cases h
      simp only
      omega
    · cases h
  drawn := Congruential.drawn

end BusinessCase
