/-
BusinessCase.Formula.Limits — bounds on what the parser takes.
-/
import BusinessCase.Value.Order

namespace BusinessCase.Formula

/-- Guards against formulas made to exhaust the reader, in the form in which they were given. -/
structure Limits where
  /-- Most characters of a formula. -/
  expressionLength : Value := .int 4000
  /-- Most parentheses, calls and signs that are open at once. -/
  nesting : Value := .int 64
  /-- Greatest height of the finished tree. -/
  depth : Value := .int 256
  /-- Places of the stack that are taken before anything is read. -/
  taken : Nat := 0

/-- The limits for what is done from within, where so many places more are taken. -/
def Limits.inside (places : Nat) (limits : Limits) : Limits :=
  { limits with taken := limits.taken + places }

def Limits.inner (limits : Limits) : Limits := limits.inside 1

/-- Is a count beyond the limit? A limit that is no number bounds nothing. -/
def exceeds (count : Nat) : Value → Bool
  | .int n => n < count
  | limit => (limit.below? (.int count)).getD false

end BusinessCase.Formula
