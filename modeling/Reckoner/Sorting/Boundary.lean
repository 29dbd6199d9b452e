/-!
# Seeking a boundary

A property of places that holds up to some place and not from there on has a boundary: the first place
where it does not hold. `bisect` seeks it between two places, `seek` around a hint, by steps that grow
until they pass it. Both look at few places only. For a property without a boundary they still give a
place, the one that the looks they take lead to.
-/

namespace Reckoner

namespace Sorting

/-- The boundary between `low` and `high`, by looking at the middle. -/
def bisect (holds : Nat → Bool) (low high : Nat) : Nat :=
  if low < high then
    let middle := low + (high - low) / 2
    if holds middle then bisect holds (middle + 1) high else bisect holds low middle
  else low
termination_by high - low
decreasing_by all_goals omega

/-- Looks at distances below `room` that more than double, as long as `goesOn` holds there. Gives the
last distance where it did and the first one where it did not, or `room` if that comes first. -/
def stride (goesOn : Nat → Bool) (room last next : Nat) : Nat × Nat :=
  if next < room then
    if goesOn next then stride goesOn room next (2 * next + 1) else (last, next)
  else (last, room)
termination_by room - next
decreasing_by omega

/-- The boundary of a property of the places below `n`, sought from a hint below `n`. -/
def seek (holds : Nat → Bool) (n hint : Nat) : Nat :=
  if holds hint then
    let (last, next) := stride (fun d => holds (hint + d)) (n - hint) 0 1
    bisect holds (hint + last + 1) (hint + next)
  else
    let (last, next) := stride (fun d => !holds (hint - d)) (hint + 1) 0 1
    bisect holds (hint + 1 - next) (hint - last)

end Sorting

end Reckoner
