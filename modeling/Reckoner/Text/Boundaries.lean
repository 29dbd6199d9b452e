/-!
# Sets of characters by their boundaries

A set of code points is given by the increasing list of the places where membership changes, the first
place being the first member. A code point belongs to the set when an odd number of boundaries lie at
or below it.
-/

namespace Reckoner

namespace Text

/-- Does the set with these boundaries hold the character? -/
def within (boundaries : List Nat) (c : Char) : Bool :=
  boundaries.countP (· ≤ c.toNat) % 2 = 1

end Text

end Reckoner
