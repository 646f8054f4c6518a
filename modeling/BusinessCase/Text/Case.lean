/-
BusinessCase.Text.Case — lower-case and upper-case forms for name look-up.

Built-in function names, switch words and log levels are all plain ASCII, so a
folded name matters only where it can be equal to one of them. `lower` therefore
folds ASCII letters and leaves other characters alone; `upper` also spells out
the few characters outside ASCII whose capital form is ASCII.
-/

namespace BusinessCase.Text

/-- Folds ASCII capitals; no other character has a small form spelled with the letters of a
built-in name or of a switch word. -/
def lower (s : String) : String := String.ofList (s.toList.map Char.toLower)

/-- Characters outside ASCII whose capital form is spelled in ASCII letters. -/
def spelledCapitals : List (Char × String) :=
  [('ß', "SS"), ('ı', "I"), ('ſ', "S"), ('ﬀ', "FF"), ('ﬁ', "FI"), ('ﬂ', "FL"), ('ﬃ', "FFI"),
   ('ﬄ', "FFL"), ('ﬅ', "ST"), ('ﬆ', "ST")]

/-- The capital form of one character, as far as it can be ASCII. -/
def capital (c : Char) : String :=
  match spelledCapitals.lookup c with
  | some text => text
  | none => String.singleton c.toUpper

def upper (s : String) : String := String.join (s.toList.map capital)

end BusinessCase.Text
