/-
BusinessCase.Simulation.Cancellation — stopping a run from outside.

A token can be cancelled, and it can have a deadline. A run looks at it now
and then; to the run the token is a `Signal`, which says what each look finds.
-/

namespace BusinessCase

/-- What makes a run stop. -/
inductive Stop where
  | cancelled
  | expired
  deriving DecidableEq

/-- A token; times are seconds on one clock. -/
structure CancellationToken where
  cancelled : Bool := false
  deadline : Option Float := none

namespace CancellationToken

/-- The token that expires so many seconds from now. -/
def withTimeout (now seconds : Float) : CancellationToken := { deadline := some (now + seconds) }

def isExpired (token : CancellationToken) (now : Float) : Bool :=
  token.deadline.any fun deadline => deadline ≤ now

def isCancelled (token : CancellationToken) (now : Float) : Bool :=
  token.cancelled || token.isExpired now

/-- What a look at the token finds; being cancelled comes before having expired. -/
def check (token : CancellationToken) (now : Float) : Option Stop :=
  if token.cancelled then some .cancelled
  else if token.isExpired now then some .expired
  else none

end CancellationToken

/-- What the looks of a run at its token find, counted from one. -/
abbrev Signal := Nat → Option Stop

/-- A token that does not change during the run. -/
def CancellationToken.signal (token : CancellationToken) (now : Float) : Signal :=
  fun _ => token.check now

/-- A token that is cancelled just before the look of that number. -/
def Signal.cancelAt (look : Nat) (signal : Signal) : Signal :=
  fun k => if look ≤ k then some .cancelled else signal k

end BusinessCase
