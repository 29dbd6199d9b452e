import Reckoner.Sorting.Boundary

/-!
# Merging two runs

Two neighbouring runs are merged into one, elements that are equal in order keeping their places. What
already stands in place at the two ends is left there. The shorter of what remains is kept apart, and
the merge takes elements from the end at which the shorter run lies: one at a time at first, and in
leaps, whole rows of elements whose length is sought by `seek`, once one run has given many elements in
a row. How many is the merge's *patience*; it falls while leaps pay off and rises when they do not, and
is handed on from merge to merge.

The order need not be transitive. The result is a rearrangement even then, and depends on the elements
that were compared; that is why the steps are fixed here so closely.
-/

namespace Reckoner

namespace Sorting

/-- The end from which a merge takes elements. -/
inductive Side where
  | front
  | back
deriving DecidableEq

/-- A merge under way: what remains of the run that is kept apart and of the other one, the next
elements first, and what has been taken, the last element first. -/
structure Merging (α : Type) where
  kept : List α
  other : List α
  taken : List α

/-- A row of this length makes leaps worth while. -/
def longRow : Nat := 7

namespace Merging

variable {α : Type}

/-- Nothing is left to decide: all of the other run is taken, or all but the last of the kept one. -/
def isOver (m : Merging α) : Bool := m.other.isEmpty || m.kept.length ≤ 1

/-- All elements in the order of taking, what remains at the end. -/
def result (m : Merging α) : List α := m.taken.reverse ++ (m.other ++ m.kept)

def takeKept (k : Nat) (m : Merging α) : Merging α :=
  { m with kept := m.kept.drop k, taken := (m.kept.take k).reverse ++ m.taken }

def takeOther (k : Nat) (m : Merging α) : Merging α :=
  { m with other := m.other.drop k, taken := (m.other.take k).reverse ++ m.taken }

/-- How many elements at the beginning have a property that is sought from the side of the merge. -/
def leading (side : Side) (leads : α → Bool) (xs : List α) : Nat :=
  let n := xs.length
  let leadsAt (i : Nat) : Bool := (xs[i]?).any leads
  match side with
  | .front => seek leadsAt n 0
  | .back => n - seek (fun i => !leadsAt (n - 1 - i)) n (n - 1)

section

variable (below : α → α → Bool) (side : Side)

/-- Is an element of the other run taken before one of the kept run? -/
def overtakes (o k : α) : Bool :=
  match side with
  | .front => below o k
  | .back => below k o

/-- Takes the row of the kept run that comes before the next element of the other run, and then that
element. Gives the length of the row. -/
def leapKept (m : Merging α) : Merging α × Nat :=
  let row := match m.other with
    | [] => 0
    | o :: _ => leading side (fun k => !overtakes below side o k) m.kept
  let m := m.takeKept row
  (if m.isOver then m else m.takeOther 1, row)

/-- Takes the row of the other run that comes before the next element of the kept run, and then that
element. Gives the length of the row. -/
def leapOther (m : Merging α) : Merging α × Nat :=
  let row := match m.kept with
    | [] => 0
    | k :: _ => leading side (fun o => overtakes below side o k) m.other
  let m := m.takeOther row
  (if m.isOver then m else m.takeKept 1, row)

/-- A leap in each run, the left one of the two runs first. Tells whether one of the rows was long. -/
def leap (m : Merging α) : Merging α × Bool :=
  let (first, second) := match side with
    | .front => (leapKept below side, leapOther below side)
    | .back => (leapOther below side, leapKept below side)
  let (m, j) := first m
  if m.isOver then (m, false)
  else
    let (m, k) := second m
    (m, longRow ≤ j || longRow ≤ k)

/-- How a merge goes on: one element at a time, after so many of the kept or of the other run in a row,
or in leaps. -/
inductive Pace where
  | steps (kept other : Nat)
  | leaps

/-- Merges to the end, with the patience that is left then. Every step takes an element, so as many
steps suffice as there are elements. -/
def run : Nat → Pace → Nat → Merging α → List α × Nat
  | 0, _, patience, m => (m.result, patience)
  | fuel + 1, .steps keptRow otherRow, patience, m =>
    match m.isOver, m.kept, m.other with
    | false, k :: _, o :: _ =>
      let (next, pace, row) :=
        if overtakes below side o k then (m.takeOther 1, Pace.steps 0 (otherRow + 1), otherRow + 1)
        else (m.takeKept 1, Pace.steps (keptRow + 1) 0, keptRow + 1)
      if !next.isOver && patience ≤ row then run fuel .leaps (patience + 1) next
      else run fuel pace patience next
    | _, _, _ => (m.result, patience)
  | fuel + 1, .leaps, patience, m =>
    let patience := if 1 < patience then patience - 1 else patience
    let (next, long) := leap below side m
    if next.isOver then (next.result, patience)
    else if long then run fuel .leaps patience next
    else run fuel (.steps 0 0) (patience + 1) next

end

end Merging

variable {α : Type} (below : α → α → Bool)

/-- Merges two runs whose first element comes from the right one and whose last comes from the left. -/
def mergeTangled (patience : Nat) (a b : List α) : List α × Nat :=
  let fuel := a.length + b.length
  if a.length ≤ b.length then
    Merging.run below .front fuel (.steps 0 0) patience (Merging.takeOther 1 ⟨a, b, []⟩)
  else
    let (merged, patience) := Merging.run below .back fuel (.steps 0 0) patience
      (Merging.takeOther 1 ⟨b.reverse, a.reverse, []⟩)
    (merged.reverse, patience)

/-- Merges two neighbouring runs. What comes before all of the right run or after all of the left one
stays in place. -/
def mergeRuns (patience : Nat) (a b : List α) : List α × Nat :=
  let before := match b with
    | [] => a.length
    | y :: _ => seek (fun i => (a[i]?).any fun x => !below y x) a.length 0
  let left := a.drop before
  match left.getLast? with
  | none => (a ++ b, patience)
  | some x =>
    let among := seek (fun i => (b[i]?).any fun y => below y x) b.length (b.length - 1)
    if among = 0 then (a ++ b, patience)
    else
      let (merged, patience) := mergeTangled below patience left (b.take among)
      (a.take before ++ merged ++ b.drop among, patience)

end Sorting

end Reckoner
