/-
BusinessCase.Text.Blank — blank characters and what is left without them.

`isBlank` is the set of characters that count as white space in every script,
the four information separators included; `strip` cuts them off both ends.
-/

namespace BusinessCase.Text

/-- Code points of the blank characters outside the ASCII range. -/
def wideBlanks : List Nat :=
  [0x85, 0xa0, 0x1680, 0x2000, 0x2001, 0x2002, 0x2003, 0x2004, 0x2005, 0x2006, 0x2007,
   0x2008, 0x2009, 0x200a, 0x2028, 0x2029, 0x202f, 0x205f, 0x3000]

/-- White space of any script. -/
def isBlank (c : Char) : Bool :=
  let code := c.toNat
  (9 ≤ code && code ≤ 13) || (0x1c ≤ code && code ≤ 0x20) || wideBlanks.contains code

/-- Cuts the leading and trailing characters that satisfy `p`. -/
def stripChars (p : Char → Bool) (cs : List Char) : List Char :=
  ((cs.dropWhile p).reverse.dropWhile p).reverse

def strip (s : String) : String := String.ofList (stripChars isBlank s.toList)

/-- Nothing is left once blanks are cut off. -/
def isAllBlank (s : String) : Bool := s.toList.all isBlank

end BusinessCase.Text
