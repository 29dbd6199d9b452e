import Reckoner.Sorting.Merge

/-!
# Sorting by runs

A list is cut into runs that ascend as they stand, or descend strictly and are reversed; short ones are
filled up by inserting the elements that follow. Neighbouring runs are merged as soon as their boundary
lies deeper in a balanced tree of merges than the one that follows, and at the end from the right.
Sorting is stable. A list shorter than `shortList` is one run.
-/

namespace Reckoner

namespace Sorting

variable {α : Type} (below : α → α → Bool)

/-! ### Runs -/

/-- Splits off the longest beginning that descends strictly below `x` and its successors. -/
def descent (x : α) : List α → List α × List α
  | [] => ([], [])
  | y :: rest =>
    if below y x then
      let (run, others) := descent y rest
      (y :: run, others)
    else ([], y :: rest)

/-- Splits off the longest beginning that nowhere descends, after `x`. -/
def ascent (x : α) : List α → List α × List α
  | [] => ([], [])
  | y :: rest =>
    if below y x then ([], y :: rest)
    else
      let (run, others) := ascent y rest
      (y :: run, others)

/-- The leading run in ascending order, a strictly descending one being reversed, and the rest. -/
def leadingRun : List α → List α × List α
  | [] => ([], [])
  | [x] => ([x], [])
  | x :: y :: rest =>
    if below y x then
      let (run, others) := descent below y rest
      ((x :: y :: run).reverse, others)
    else
      let (run, others) := ascent below y rest
      (x :: y :: run, others)

/-- Puts an element into a run, after all that it is not below. -/
def insert (run : List α) (x : α) : List α :=
  let i := bisect (fun i => (run[i]?).any fun y => !below x y) 0 run.length
  run.take i ++ x :: run.drop i

/-- Lists below this length are one run. -/
def shortList : Nat := 64

/-- The length to which short runs are filled up in a list of `n` elements: the leading digits of `n` in
binary as a number below `shortList`, and one more if any of the other digits is not zero. -/
def leastRun (n odd : Nat) : Nat :=
  if shortList ≤ n then leastRun (n / 2) (max odd (n % 2)) else n + odd
termination_by n
decreasing_by simp only [shortList] at *; omega

/-- The next run of a list, filled up to a length, and the rest. -/
def nextRun (least : Nat) (xs : List α) : List α × List α :=
  let (run, rest) := leadingRun below xs
  let lacking := least - run.length
  ((rest.take lacking).foldl (insert below) run, rest.drop lacking)

/-! ### The order of merges -/

/-- A run that waits to be merged: its place, its elements, and how deep its boundary with the next run
lies in the tree of merges. -/
structure Waiting (α : Type) where
  start : Nat
  elements : List α
  depth : Nat

/-- The first binary digit in which two fractions with denominator `n` differ, of at most `limit`. -/
def firstDifference (n : Nat) : Nat → Nat → Nat → Nat
  | 0, _, _ => 0
  | limit + 1, a, b =>
    if n ≤ a then firstDifference n limit (2 * (a - n)) (2 * (b - n)) + 1
    else if n ≤ b then 1
    else firstDifference n limit (2 * a) (2 * b) + 1

/-- How deep the boundary lies between a run and the next one, in a list of `n` elements: the first
digit that tells the middles of the two runs apart. -/
def boundaryDepth (n start length nextLength : Nat) : Nat :=
  let a := 2 * start + length
  firstDifference n (n + 1) a (a + length + nextLength)

/-- Merges a waiting run with the one before it. -/
def Waiting.join (patience : Nat) (left right : Waiting α) : Waiting α × Nat :=
  let (merged, patience) := mergeRuns below patience left.elements right.elements
  ({ left with elements := merged }, patience)

/-- Merges the last waiting run with those before it whose boundaries are deeper than `depth`. -/
def settle (depth patience : Nat) (last : Waiting α) : List (Waiting α) → List (Waiting α) × Nat
  | [] => ([{ last with depth }], patience)
  | previous :: rest =>
    if depth < previous.depth then
      let (joined, patience) := Waiting.join below patience previous last
      settle depth patience joined rest
    else ({ last with depth } :: previous :: rest, patience)

/-- Cuts a list into runs, merging what can be merged. The waiting runs have the last one first. As many
rounds suffice as there are elements. -/
def gather (n : Nat) : Nat → Nat → List (Waiting α) → List α → List (Waiting α) × Nat
  | 0, patience, waiting, _ => (waiting, patience)
  | _ + 1, patience, waiting, [] => (waiting, patience)
  | fuel + 1, patience, waiting, x :: rest =>
    let (run, rest) := nextRun below (leastRun n 0) (x :: rest)
    let (waiting, patience) := match waiting with
      | [] => ([], patience)
      | last :: others =>
        let depth := boundaryDepth n last.start last.elements.length run.length
        settle below depth patience last others
    let start := match waiting with
      | [] => 0
      | last :: _ => last.start + last.elements.length
    gather n fuel patience (⟨start, run, 0⟩ :: waiting) rest

/-- Merges all waiting runs, from the right, but a run with the one before it if that is shorter than
the one after it. -/
def mergeAll (patience : Nat) : List (Waiting α) → List α
  | [] => []
  | [run] => run.elements
  | [c, b] => (Waiting.join below patience b c).1.elements
  | c :: b :: a :: rest =>
    if a.elements.length < c.elements.length then
      let (joined, patience) := Waiting.join below patience a b
      mergeAll patience (c :: joined :: rest)
    else
      let (joined, patience) := Waiting.join below patience b c
      mergeAll patience (joined :: a :: rest)
termination_by waiting => waiting.length

/-- The elements in ascending order, those that are equal in order as they stood. -/
def sort (xs : List α) : List α :=
  let (waiting, patience) := gather below xs.length xs.length longRow [] xs
  mergeAll below patience waiting

end Sorting

end Reckoner
