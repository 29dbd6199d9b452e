import Reckoner.Double.Arithmetic

/-!
# Hashes of doubles

A number is hashed by its rest modulo the prime `2^61 - 1`, with the sign of the number. Powers of two
are powers of two there again, since `2^61` has the rest one; so a unit, which is `2^-1074`, has the
rest `2^24`. The hash `-1` is not used.
-/

namespace Reckoner

namespace Double

/-- The prime modulo which numbers are hashed, `2^61 - 1`. -/
def hashPrime : Nat := 2305843009213693951

/-- The hash of infinity. -/
def infinityHash : Nat := 314159

/-- The hash of a double. Not-a-number is hashed as a word, and the hashes of words differ from run to
run. -/
def hash (word : Int) : Double → Int
  | .nan => word
  | .ranked s r _ =>
    let rest := if r = infinityRank then infinityHash else units r * Nat.pow 2 24 % hashPrime
    if signed s rest = -1 then -2 else signed s rest

end Double

end Reckoner
