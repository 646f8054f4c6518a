/-
BusinessCase.Proofs.Scalar.Given — doubles with a given logarithm and cosine.

Sums, products, quotients and roots of doubles are rounded in one way only. Of
the logarithm and the cosine it is not said how they are rounded, so what a rule
makes of them is said for any two functions that may take their places.
-/
import BusinessCase.Scalar.Binary64

namespace BusinessCase

/-- Doubles, with other functions in the places of the logarithm and the cosine. -/
@[reducible] def doublesWith (log cos : Float → Float) : Scalar Float :=
  { (inferInstance : Scalar Float) with log, cos }

/-- With their own logarithm and cosine they are the doubles of the numeric rules. -/
theorem doublesWith_own : doublesWith Float.log Float.cos = (inferInstance : Scalar Float) := rfl

/-- Doubles that know the logarithm of one and the cosine of zero alone. -/
@[reducible] def levelDoubles : Scalar Float := doublesWith (fun _ => 0.0) (fun _ => 1.0)

end BusinessCase
