/-!
Sets of characters given by evenly spaced stretches of their numbers, the form in which the
tables of Unicode properties are kept.
-/

namespace ScoreScript

/-- The numbers `first, first + step, …` up to `last`. -/
structure Stretch where
  first : Nat
  last : Nat
  step : Nat

namespace Stretch

def contains (s : Stretch) (n : Nat) : Bool :=
  s.first ≤ n && n ≤ s.last && (n - s.first) % s.step == 0

end Stretch

/-- Whether some stretch of a table holds the number of `c`. -/
def inTable (table : List Stretch) (c : Char) : Bool :=
  table.any (·.contains c.toNat)

end ScoreScript
