/-
# Sets of characters

A set of code points is kept as the increasing list of positions where membership flips: the
characters below the first position are outside, those from it up to the second are inside, and
so on.
-/

namespace Handheld

structure CharSet where
  flips : List Nat

/-- Membership flips once for every position at or below the code point. -/
def CharSet.contains (s : CharSet) (c : Char) : Bool :=
  (s.flips.filter (· ≤ c.toNat)).length % 2 == 1

end Handheld
