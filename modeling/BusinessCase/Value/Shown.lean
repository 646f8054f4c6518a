/-
BusinessCase.Value.Shown — which values can be shown.

A whole number is written out up to a greatest count of digits. A text that
would have to show a longer one cannot be formed at all. Writing out a list or
an object takes a place of the stack for each level.
-/
import BusinessCase.Value

namespace BusinessCase.Value

/-- The least whole number that has more digits than are written out, the 4300th power of ten. -/
def shownBound : Nat := Nat.pow 10 4300

mutual

/-- Does the value hold no whole number that is too long to be shown? -/
def isShown : Value → Bool
  | int n => n.natAbs < shownBound
  | list items => allShown items
  | object fields => fieldsShown fields
  | null | bool _ | float _ | text _ => true

def allShown : List Value → Bool
  | [] => true
  | item :: rest => isShown item && allShown rest

def fieldsShown : List (String × Value) → Bool
  | [] => true
  | (_, value) :: rest => isShown value && fieldsShown rest

end

mutual

/-- The places of the stack that writing the value out takes. -/
def places : Value → Nat
  | list items => placesOfItems items + 1
  | object fields => placesOfFields fields + 1
  | null | bool _ | int _ | float _ | text _ => 1

def placesOfItems : List Value → Nat
  | [] => 0
  | item :: rest => max (places item) (placesOfItems rest)

def placesOfFields : List (String × Value) → Nat
  | [] => 0
  | (_, value) :: rest => max (places value) (placesOfFields rest)

end

def unshownText : String :=
  "Exceeds the limit (4300 digits) for integer string conversion; " ++
    "use sys.set_int_max_str_digits() to increase the limit"

end BusinessCase.Value
