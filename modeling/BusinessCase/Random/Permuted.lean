/-
BusinessCase.Random.Permuted — seeded streams of uniform numbers.

A permuted congruential generator with 128 bits of state. Its start is mixed
out of the words of a seed, so that similar seeds give unrelated streams; a
numbered child of a seed has further words of its own.

  §1 Words     — seeds as 32-bit words.
  §2 Mixing    — the pool of four words, and what is read out of it.
  §3 Generator — `Permuted`, `Permuted.ofWords`, `Permuted.ofChild`.
-/
import BusinessCase.Random.Source

namespace BusinessCase

namespace Seed

/-! ## §1 Words -/

/-- The 32-bit words of a number, least first; zero has one. -/
def words (n : Nat) : List UInt32 :=
  if n < 0x100000000 then [UInt32.ofNat n]
  else UInt32.ofNat (n % 0x100000000) :: words (n / 0x100000000)
termination_by n
decreasing_by omega

/-- The words of the child of a seed with that index: those of the seed, at least four, then
those of the index. -/
def childWords (root : List UInt32) (index : Nat) : List UInt32 :=
  root ++ List.replicate (4 - root.length) 0 ++ words index

/-! ## §2 Mixing -/

/-- A pool of words, and the multiplier that changes with every word that is hashed. -/
structure Pool where
  cells : List UInt32
  multiplier : UInt32

/-- Hashes a word with the multiplier `h` and the factor that changes it; answers the hash and the
next multiplier. -/
def hash (factor h v : UInt32) : UInt32 × UInt32 :=
  let next := h * factor
  let mixed := (v ^^^ h) * next
  (mixed ^^^ (mixed >>> 16), next)

def combine (x y : UInt32) : UInt32 :=
  let r := 0xca01f9dd * x - 0x4973f715 * y
  r ^^^ (r >>> 16)

/-- Hashes a word into one cell of the pool. -/
def Pool.stir (pool : Pool) (word : UInt32) (cell : Nat) : Pool :=
  let (hashed, multiplier) := hash 0x931e8875 pool.multiplier word
  { cells := pool.cells.modify cell (combine · hashed), multiplier }

/-- The pool that starts with the first four words, missing ones being zero. -/
def Pool.fill (words : List UInt32) : Pool :=
  (List.range 4).foldl
    (fun pool i =>
      let (hashed, multiplier) := hash 0x931e8875 pool.multiplier (words.getD i 0)
      { cells := pool.cells ++ [hashed], multiplier })
    { cells := [], multiplier := 0x43b0d7e5 }

/-- Hashes every cell into every other cell. -/
def Pool.spread (pool : Pool) : Pool :=
  (List.range 4).foldl
    (fun pool source =>
      ((List.range 4).filter (· != source)).foldl
        (fun pool target => pool.stir (pool.cells.getD source 0) target) pool)
    pool

/-- Hashes the words after the fourth into every cell. -/
def Pool.absorb (pool : Pool) (words : List UInt32) : Pool :=
  (words.drop 4).foldl
    (fun pool word => (List.range 4).foldl (fun pool target => pool.stir word target) pool) pool

def Pool.ofWords (words : List UInt32) : Pool := ((Pool.fill words).spread).absorb words

/-- Reads eight words out of the pool. -/
def Pool.output (pool : Pool) : List UInt32 :=
  ((List.range 8).foldl
    (fun (out : List UInt32 × UInt32) i =>
      let (hashed, multiplier) := hash 0x58f38ded out.2 (pool.cells.getD (i % 4) 0)
      (out.1 ++ [hashed], multiplier))
    ([], 0x8b51f9dd)).1

/-- The 128-bit number made of two of the 64-bit numbers that pairs of words spell, least word
first. -/
def wide (words : List UInt32) (high low : Nat) : Nat :=
  let pair (j : Nat) : Nat :=
    (words.getD (2 * j) 0).toNat + (words.getD (2 * j + 1) 0).toNat * 0x100000000
  pair high * 0x10000000000000000 + pair low

end Seed

/-! ## §3 Generator -/

/-- The number of states, the 128th power of two; no state comes back sooner. -/
def statePeriod : Nat := 0x100000000000000000000000000000000

/-- State and increment of the generator, both below `statePeriod`. -/
structure Permuted where
  state : Nat
  increment : Nat
  drawn : Nat := 0

namespace Permuted

def step (state increment : Nat) : Nat :=
  (state * 0x2360ED051FC65DA44385DF649FCCF645 + increment) % statePeriod

/-- The output of a state: its halves folded together and turned by its six highest bits. -/
def output (state : Nat) : UInt64 :=
  let folded := UInt64.ofNat ((state >>> 64) ^^^ (state % 0x10000000000000000))
  let turn := UInt64.ofNat (state >>> 122)
  (folded >>> turn) ||| (folded <<< ((64 - turn) % 64))

def ofWords (words : List UInt32) : Permuted :=
  let out := (Seed.Pool.ofWords words).output
  let increment := (2 * Seed.wide out 2 3 + 1) % statePeriod
  let start := (step 0 increment + Seed.wide out 0 1) % statePeriod
  { state := step start increment, increment }

/-- The generator of a numbered child of a seed with the given words. -/
def ofChild (root : List UInt32) (index : Nat) : Permuted := ofWords (Seed.childWords root index)

end Permuted

instance : UniformSource Permuted Float where
  draw? s :=
    if s.drawn < statePeriod then
      let state := Permuted.step s.state s.increment
      some (unitInterval (Permuted.output state).toNat, { s with state, drawn := s.drawn + 1 })
    else none
  remaining s := statePeriod - s.drawn
  remaining_lt := by
    intro s s' u h
    split at h
    · cases h
      simp only
      omega
    · cases h
  drawn := Permuted.drawn

end BusinessCase
