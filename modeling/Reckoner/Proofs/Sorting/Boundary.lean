import Reckoner.Sorting.Boundary

/-!
# Boundaries in ascending lists

The searches find a boundary whatever property they are given: a place that has the property just before
it and not from it on, as far as the places next to it can tell (`IsBoundary`).  In a list that ascends in
an order `R`, a property that says of each element on which side of `t` it lies has its boundary where `t`
belongs: everything before that place precedes `t` and everything from there on follows it
(`Divides.parts`).  Of elements that precede `t` and follow it too the property may say anything.
-/

namespace Reckoner

namespace Sorting

/-! ## Searches -/

/-- A place between two others that parts those with a property from those without it, as far as its
neighbours tell. -/
structure IsBoundary (holds : Nat → Bool) (low high place : Nat) : Prop where
  low_le : low ≤ place
  le_high : place ≤ high
  before : low < place → holds (place - 1) = true
  after : place < high → holds place = false

variable {holds : Nat → Bool} {low high n hint place : Nat}

/-- A boundary is one between two places further out, if the ends between which it was sought are no
boundaries the wrong way round. -/
theorem IsBoundary.widen {first last : Nat} (inner : IsBoundary holds low high place)
    (le_low : first ≤ low) (high_le : high ≤ last) (start : first < low → holds (low - 1) = true)
    (stop : high < last → holds high = false) : IsBoundary holds first last place := by
  refine ⟨Nat.le_trans le_low inner.low_le, Nat.le_trans inner.le_high high_le, ?_, ?_⟩
  · intro inside
    rcases Nat.lt_or_eq_of_le inner.low_le with later | rfl
    · exact inner.before later
    · exact start inside
  · intro inside
    rcases Nat.lt_or_eq_of_le inner.le_high with earlier | rfl
    · exact inner.after earlier
    · exact stop inside

theorem isBoundary_bisect (holds : Nat → Bool) (h : low ≤ high) :
    IsBoundary holds low high (bisect holds low high) := by
  fun_induction bisect holds low high with
  | case1 low high lt middle yes ih =>
    exact (ih (by omega)).widen (by omega) (Nat.le_refl _) (fun _ => yes)
      fun inside => absurd inside (Nat.lt_irrefl _)
  | case2 low high lt middle no ih =>
    exact (ih (by omega)).widen (Nat.le_refl _) (by omega) (fun inside => absurd inside (Nat.lt_irrefl _))
      fun _ => Bool.eq_false_iff.mpr no
  | case3 low high none =>
    exact ⟨Nat.le_refl _, h, fun inside => absurd inside (Nat.lt_irrefl _),
      fun inside => absurd inside none⟩

/-- Strides keep to the room, and go on from the last place where they may to the first where they may
not. -/
theorem stride_spec (goesOn : Nat → Bool) {room last next : Nat} (ahead : last < next)
    (within : last < room) (goes : goesOn last = true) :
    let (l, n) := stride goesOn room last next
    l < n ∧ n ≤ room ∧ goesOn l = true ∧ (n < room → goesOn n = false) := by
  fun_induction stride goesOn room last next with
  | case1 last next inside yes ih => exact ih (by omega) inside yes
  | case2 last next inside no => exact ⟨ahead, Nat.le_of_lt inside, goes, fun _ => Bool.eq_false_iff.mpr no⟩
  | case3 last next outside => exact ⟨within, Nat.le_refl _, goes, fun h => absurd h (Nat.lt_irrefl _)⟩

theorem isBoundary_seek (holds : Nat → Bool) (h : hint < n) :
    IsBoundary holds 0 n (seek holds n hint) := by
  unfold seek
  split
  · next yes =>
    have strides := stride_spec (fun d => holds (hint + d)) Nat.zero_lt_one
      (by omega : 0 < n - hint) yes
    generalize stride (fun d => holds (hint + d)) (n - hint) 0 1 = found at strides
    obtain ⟨last, next⟩ := found
    obtain ⟨ahead, within, goes, stops⟩ := strides
    exact (isBoundary_bisect holds (by omega : hint + last + 1 ≤ hint + next)).widen (Nat.zero_le _)
      (by omega) (fun _ => goes) fun inside => stops (by omega)
  · next no =>
    have strides := stride_spec (fun d => !holds (hint - d)) Nat.zero_lt_one
      (Nat.succ_pos hint) (by simpa using no)
    generalize stride (fun d => !holds (hint - d)) (hint + 1) 0 1 = found at strides
    obtain ⟨last, next⟩ := found
    obtain ⟨ahead, within, goes, stops⟩ := strides
    refine (isBoundary_bisect holds (by omega : hint + 1 - next ≤ hint - last)).widen (Nat.zero_le _)
      (by omega) (fun inside => ?_) fun _ => by simpa using goes
    have place : hint + 1 - next - 1 = hint - next := by omega
    rw [place]
    simpa using stops (by omega)

/-! ## Parting a list -/

section Parting

variable {α : Type} {R : α → α → Prop} {t : α} {xs : List α}

/-- Does a property of elements hold at a place of a list? -/
def holdsAt (leads : α → Bool) (xs : List α) (i : Nat) : Bool := (xs[i]?).any leads

theorem holdsAt_of_lt (leads : α → Bool) {i : Nat} (h : i < xs.length) :
    holdsAt leads xs i = leads xs[i] := by
  rw [holdsAt, List.getElem?_eq_getElem h]
  rfl

/-- An ascending list with a property that tells on which side of an element each of its own belongs. -/
structure Divides (R : α → α → Prop) (leads : α → Bool) (t : α) (xs : List α) : Prop where
  trans : ∀ {x y z}, R x y → R y z → R x z
  ascends : xs.Pairwise R
  yes : ∀ x ∈ xs, leads x = true → R x t
  no : ∀ x ∈ xs, leads x = false → R t x

/-- A place of a list at which an element belongs. -/
structure Parts (R : α → α → Prop) (t : α) (xs : List α) (place : Nat) : Prop where
  before : ∀ x ∈ xs.take place, R x t
  after : ∀ x ∈ xs.drop place, R t x

/-- The boundary of the property is where the element belongs. -/
theorem Divides.parts {leads : α → Bool} (divides : Divides R leads t xs)
    (boundary : IsBoundary (holdsAt leads xs) 0 xs.length place) : Parts R t xs place := by
  constructor
  · intro x mem
    obtain ⟨i, inside, rfl⟩ := List.mem_take_iff_getElem.mp mem
    have last : place - 1 < xs.length := by have := boundary.le_high; omega
    have before : R xs[place - 1] t := by
      refine divides.yes _ (List.getElem_mem last) ?_
      rw [← holdsAt_of_lt leads last]
      exact boundary.before (by omega)
    rcases Nat.lt_or_eq_of_le (by omega : i ≤ place - 1) with earlier | rfl
    · exact divides.trans (List.pairwise_iff_getElem.mp divides.ascends i (place - 1) _ last earlier)
        before
    · exact before
  · intro x mem
    obtain ⟨i, inside, rfl⟩ := List.mem_drop_iff_getElem.mp mem
    have first : place < xs.length := by omega
    have after : R t xs[place] := by
      refine divides.no _ (List.getElem_mem first) ?_
      rw [← holdsAt_of_lt leads first]
      exact boundary.after first
    rcases Nat.eq_zero_or_pos i with rfl | later
    · exact after
    · exact divides.trans after
        (List.pairwise_iff_getElem.mp divides.ascends place (place + i) first _ (by omega))

/-- A search finds where an element belongs. -/
theorem Divides.parts_seek {leads : α → Bool} (divides : Divides R leads t xs) (hint : Nat)
    (inside : xs ≠ [] → hint < xs.length) :
    Parts R t xs (seek (holdsAt leads xs) xs.length hint) := by
  by_cases none : xs = []
  · subst none
    exact ⟨fun x hx => by simp at hx, fun x hx => by simp at hx⟩
  · exact divides.parts (isBoundary_seek (holdsAt leads xs) (inside none))

end Parting

end Sorting

end Reckoner
