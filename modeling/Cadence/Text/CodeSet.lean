/-!
# Sets of code points

A set of characters given by the points at which membership changes, in increasing order.
-/

namespace Cadence.Text

/-- Members are the characters with an odd number of toggles at or below them. -/
structure CodeSet where
  toggles : List Nat

def CodeSet.contains (s : CodeSet) (c : Char) : Bool :=
  s.toggles.countP (· ≤ c.toNat) % 2 == 1

end Cadence.Text
