import Reckoner.Proofs.Sorting.Boundary
import Reckoner.Sorting.Merge

/-!
# Merges ascend

A merge arranges the elements of two ascending runs, in every order `R` that the comparison never
contradicts (`Respects`): what is below another element comes before it in `R`, and what is not below it
comes after it or is equal to it in `R`.  The comparison itself need not be transitive.  An order that it
respects is transitive but may leave open, or even take for equal, what the comparison tells apart.

What carries a merge is that all that has been taken precedes all that is left, in the order of the side
from which it takes (`Merging.Sound`).  Single steps and leaps keep this (`Merging.Sound.takeOne`,
`Merging.Sound.leap`) and take at least one element, so a merge with steps enough goes to its end
(`Merging.Sound.run`).  Where two runs do not overlap, everything stays as it is (`Overlap`,
`arranges_mergeRuns`).
-/

namespace Reckoner

namespace Sorting

variable {α : Type} {below : α → α → Bool} {P : α → Prop} {R S : α → α → Prop} {xs ys : List α}

/-- A comparison that never contradicts an order on the elements with a property. -/
structure Respects (below : α → α → Bool) (P : α → Prop) (R : α → α → Prop) : Prop where
  trans : ∀ {x y z}, R x y → R y z → R x z
  of_below : ∀ {x y}, P x → P y → below x y = true → R x y
  of_not_below : ∀ {x y}, P x → P y → below x y = false → R y x

/-- All elements that an element is not below belong before it. -/
theorem Respects.divides_not_above (respects : Respects below P R) {t : α} (ht : P t)
    (member : ∀ x ∈ xs, P x) (ascends : xs.Pairwise R) : Divides R (fun x => !below t x) t xs where
  trans := respects.trans
  ascends := ascends
  yes x hx leads := respects.of_not_below ht (member x hx) (by simpa using leads)
  no x hx leads := respects.of_below ht (member x hx) (by simpa using leads)

/-- All elements below an element belong before it. -/
theorem Respects.divides_below (respects : Respects below P R) {t : α} (ht : P t)
    (member : ∀ x ∈ xs, P x) (ascends : xs.Pairwise R) : Divides R (fun x => below x t) t xs where
  trans := respects.trans
  ascends := ascends
  yes x hx leads := respects.of_below (member x hx) ht leads
  no x hx leads := respects.of_not_below (member x hx) ht leads

/-- What precedes the first element of an ascending list precedes all of it. -/
theorem forall_of_head {t x : α} (ascends : (t :: xs).Pairwise R)
    (trans : ∀ {x y z}, R x y → R y z → R x z) (h : R x t) : ∀ y ∈ t :: xs, R x y := by
  intro y mem
  rcases List.mem_cons.mp mem with rfl | later
  · exact h
  · exact trans h (List.rel_of_pairwise_cons ascends later)

/-- All of an ascending list precedes what its last element precedes. -/
theorem forall_of_last {x z : α} (ascends : xs.Pairwise R) (trans : ∀ {x y z}, R x y → R y z → R x z)
    (last : xs.getLast? = some x) (h : R x z) : ∀ y ∈ xs, R y z := by
  obtain ⟨init, rfl⟩ := List.getLast?_eq_some_iff.mp last
  intro y mem
  rcases List.mem_append.mp mem with inner | ending
  · exact trans ((List.pairwise_append.mp ascends).2.2 y inner x List.mem_cons_self) h
  · rwa [List.mem_singleton.mp ending]

/-- The elements of a list in ascending order. -/
structure Arranges (R : α → α → Prop) (xs ys : List α) : Prop where
  perm : ys.Perm xs
  ascends : ys.Pairwise R

theorem arranges_append (left : xs.Pairwise R) (right : ys.Pairwise R)
    (across : ∀ x ∈ xs, ∀ y ∈ ys, R x y) : Arranges R (xs ++ ys) (xs ++ ys) :=
  ⟨List.Perm.refl _, List.pairwise_append.mpr ⟨left, right, across⟩⟩

/-- The order in which a merge takes elements from a side. -/
def Side.order (R : α → α → Prop) : Side → α → α → Prop
  | .front => R
  | .back => fun x y => R y x

theorem Respects.overtakes (respects : Respects below P R) (side : Side) :
    Respects (Merging.overtakes below side) P (side.order R) := by
  cases side with
  | front => exact respects
  | back =>
    exact ⟨fun first second => respects.trans second first,
      fun hx hy yes => respects.of_below hy hx yes, fun hx hy no => respects.of_not_below hy hx no⟩

namespace Merging

/-! ## Taking elements -/

/-- A merge of the elements of a list that goes well: what has been taken ascends and precedes all that is
left, what is left of either run ascends, and nothing left of the other run follows the last element of
the kept one. -/
structure Sound (S : α → α → Prop) (xs : List α) (m : Merging α) : Prop where
  perm : m.result.Perm xs
  kept : (m.taken.reverse ++ m.kept).Pairwise S
  other : (m.taken.reverse ++ m.other).Pairwise S
  last : ∀ k ∈ m.kept.getLast?, ∀ o ∈ m.other, S o k

/-- How many elements are left. -/
def size (m : Merging α) : Nat := m.kept.length + m.other.length

variable {m : Merging α}

/-- Elements of the kept run that precede the other run may be taken. -/
theorem Sound.takeKept (sound : Sound S xs m) (k : Nat)
    (ahead : ∀ x ∈ m.kept.take k, ∀ y ∈ m.other, S x y) : Sound S xs (m.takeKept k) := by
  have whole : m.kept.take k ++ m.kept.drop k = m.kept := List.take_append_drop k m.kept
  have taken : (m.takeKept k).taken.reverse = m.taken.reverse ++ m.kept.take k := by
    simp [Merging.takeKept]
  obtain ⟨-, ascends, before⟩ := List.pairwise_append.mp sound.other
  refine ⟨?_, ?_, ?_, ?_⟩
  · refine List.Perm.trans ?_ sound.perm
    rw [result, result, taken, List.append_assoc]
    refine (List.perm_append_comm_assoc _ _ _).append_left _ |>.trans ?_
    change (m.taken.reverse ++ (m.other ++ (m.kept.take k ++ m.kept.drop k))).Perm _
    rw [whole]
  · rw [taken, List.append_assoc]
    change (m.taken.reverse ++ (m.kept.take k ++ m.kept.drop k)).Pairwise S
    rw [whole]
    exact sound.kept
  · rw [taken]
    refine List.pairwise_append.mpr ⟨?_, ascends, ?_⟩
    · exact sound.kept.sublist ((List.take_sublist k m.kept).append_left _)
    · intro x mem y hy
      rcases List.mem_append.mp mem with early | now
      · exact before x early y hy
      · exact ahead x now y hy
  · intro z mem y hy
    change z ∈ (m.kept.drop k).getLast? at mem
    rw [List.getLast?_drop] at mem
    split at mem
    · cases mem
    · exact sound.last z mem y hy

/-- Elements of the other run that precede the kept run may be taken. -/
theorem Sound.takeOther (sound : Sound S xs m) (k : Nat)
    (ahead : ∀ x ∈ m.other.take k, ∀ y ∈ m.kept, S x y) : Sound S xs (m.takeOther k) := by
  have whole : m.other.take k ++ m.other.drop k = m.other := List.take_append_drop k m.other
  have taken : (m.takeOther k).taken.reverse = m.taken.reverse ++ m.other.take k := by
    simp [Merging.takeOther]
  obtain ⟨-, ascends, before⟩ := List.pairwise_append.mp sound.kept
  refine ⟨?_, ?_, ?_, ?_⟩
  · refine List.Perm.trans ?_ sound.perm
    rw [result, result, taken, List.append_assoc, ← List.append_assoc (m.other.take k)]
    change (m.taken.reverse ++ ((m.other.take k ++ m.other.drop k) ++ m.kept)).Perm _
    rw [whole]
  · rw [taken]
    refine List.pairwise_append.mpr ⟨?_, ascends, ?_⟩
    · exact sound.other.sublist ((List.take_sublist k m.other).append_left _)
    · intro x mem y hy
      rcases List.mem_append.mp mem with early | now
      · exact before x early y hy
      · exact ahead x now y hy
  · rw [taken, List.append_assoc]
    change (m.taken.reverse ++ (m.other.take k ++ m.other.drop k)).Pairwise S
    rw [whole]
    exact sound.other
  · intro z mem y hy
    exact sound.last z mem y (List.mem_of_mem_drop hy)

/-- A merge that is over has arranged all elements. -/
theorem Sound.arranges (sound : Sound S xs m) (ended : m.isOver = true) : Arranges S xs m.result := by
  obtain ⟨sorted, others, beforeOther⟩ := List.pairwise_append.mp sound.other
  obtain ⟨-, kepts, beforeKept⟩ := List.pairwise_append.mp sound.kept
  refine ⟨sound.perm, List.pairwise_append.mpr ⟨sorted, List.pairwise_append.mpr ⟨others, kepts, ?_⟩, ?_⟩⟩
  · intro o ho k hk
    -- The only element that may be left of the kept run is its last one.
    refine sound.last k ?_ o ho
    rcases Bool.or_eq_true _ _ ▸ ended with exhausted | few
    · rw [List.isEmpty_iff.mp exhausted] at ho
      cases ho
    · have one : m.kept.length = 1 := by
        have := List.length_pos_of_mem hk
        have : m.kept.length ≤ 1 := of_decide_eq_true few
        omega
      obtain ⟨z, single⟩ := List.length_eq_one_iff.mp one
      rw [single] at hk ⊢
      exact Option.mem_some.mpr (List.mem_singleton.mp hk).symm
  · intro x hx y hy
    rcases List.mem_append.mp hy with ho | hk
    · exact beforeOther x hx y ho
    · exact beforeKept x hx y hk

theorem Sound.mem_of_kept (sound : Sound S xs m) {x : α} (h : x ∈ m.kept) : x ∈ xs :=
  sound.perm.mem_iff.mp (List.mem_append_right _ (List.mem_append_right _ h))

theorem Sound.mem_of_other (sound : Sound S xs m) {x : α} (h : x ∈ m.other) : x ∈ xs :=
  sound.perm.mem_iff.mp (List.mem_append_right _ (List.mem_append_left _ h))

theorem Sound.kept_ascends (sound : Sound S xs m) : m.kept.Pairwise S :=
  (List.pairwise_append.mp sound.kept).2.1

theorem Sound.other_ascends (sound : Sound S xs m) : m.other.Pairwise S :=
  (List.pairwise_append.mp sound.other).2.1

/-! ## Leaps -/

theorem isBoundary_leading (side : Side) (leads : α → Bool) (h : xs ≠ []) :
    IsBoundary (holdsAt leads xs) 0 xs.length (leading side leads xs) := by
  have inside : 0 < xs.length := List.length_pos_iff.mpr h
  cases side with
  | front => exact isBoundary_seek (holdsAt leads xs) inside
  | back =>
    -- The search runs through the places backwards.
    have parts := isBoundary_seek (fun i => !holdsAt leads xs (xs.length - 1 - i))
      (by omega : xs.length - 1 < xs.length)
    change IsBoundary (holdsAt leads xs) 0 xs.length (xs.length -
      seek (fun i => !holdsAt leads xs (xs.length - 1 - i)) xs.length (xs.length - 1))
    generalize seek (fun i => !holdsAt leads xs (xs.length - 1 - i)) xs.length (xs.length - 1) = p at parts
    have within := parts.le_high
    refine ⟨Nat.zero_le _, Nat.sub_le _ _, fun low => ?_, fun high => ?_⟩
    · have place : xs.length - p - 1 = xs.length - 1 - p := by omega
      rw [place]
      simpa using parts.after (by omega)
    · have place : xs.length - 1 - (p - 1) = xs.length - p := by omega
      have before := parts.before (by omega)
      rw [place] at before
      simpa using before

/-- A leading row is what belongs before the element that it is compared with. -/
theorem parts_leading (side : Side) {leads : α → Bool} {t : α} (divides : Divides S leads t xs) :
    Parts S t xs (leading side leads xs) := by
  cases xs with
  | nil => exact ⟨fun x hx => by simp at hx, fun x hx => by simp at hx⟩
  | cons x rest => exact divides.parts (isBoundary_leading side leads (List.cons_ne_nil x rest))

section

variable {side : Side}

theorem Sound.leapKept (respects : Respects (overtakes below side) P S) (member : ∀ x ∈ xs, P x)
    (sound : Sound S xs m) : Sound S xs (m.leapKept below side).1 := by
  obtain ⟨kept, other, taken⟩ := m
  cases other with
  | nil => exact sound.takeKept 0 (fun x hx => nomatch hx)
  | cons o rest =>
    have ho : P o := member o (sound.mem_of_other List.mem_cons_self)
    have parts := parts_leading side <| respects.divides_not_above ho
      (fun k hk => member k (sound.mem_of_kept hk)) sound.kept_ascends
    have row := sound.takeKept _ fun x hx =>
      forall_of_head sound.other_ascends respects.trans (parts.before x hx)
    unfold Merging.leapKept
    dsimp only
    split
    · exact row
    · refine row.takeOther 1 fun x hx y hy => ?_
      obtain rfl := List.mem_singleton.mp hx
      exact parts.after y hy

theorem Sound.leapOther (respects : Respects (overtakes below side) P S) (member : ∀ x ∈ xs, P x)
    (sound : Sound S xs m) : Sound S xs (m.leapOther below side).1 := by
  obtain ⟨kept, other, taken⟩ := m
  cases kept with
  | nil =>
    have row := sound.takeOther 0 fun x hx => nomatch hx
    unfold Merging.leapOther
    dsimp only
    split
    · exact row
    · exact row.takeKept 1 fun x hx => nomatch hx
  | cons k rest =>
    have hk : P k := member k (sound.mem_of_kept List.mem_cons_self)
    have parts := parts_leading side <| respects.divides_below hk
      (fun o ho => member o (sound.mem_of_other ho)) sound.other_ascends
    have row := sound.takeOther _ fun x hx =>
      forall_of_head sound.kept_ascends respects.trans (parts.before x hx)
    unfold Merging.leapOther
    dsimp only
    split
    · exact row
    · refine row.takeKept 1 fun x hx y hy => ?_
      obtain rfl := List.mem_singleton.mp hx
      exact parts.after y hy

theorem Sound.leap (respects : Respects (overtakes below side) P S) (member : ∀ x ∈ xs, P x)
    (sound : Sound S xs m) : Sound S xs (m.leap below side).1 := by
  unfold Merging.leap
  cases side with
  | front =>
    dsimp only
    split
    · exact sound.leapKept respects member
    · exact (sound.leapKept respects member).leapOther respects member
  | back =>
    dsimp only
    split
    · exact sound.leapOther respects member
    · exact (sound.leapOther respects member).leapKept respects member

/-! ## Progress -/

theorem lengths_of_not_isOver (h : ¬ m.isOver = true) : 0 < m.other.length ∧ 1 < m.kept.length := by
  obtain ⟨going, many⟩ := not_or.mp (mt (Bool.or_eq_true _ _).mpr h)
  refine ⟨?_, ?_⟩
  · rw [List.isEmpty_iff] at going
    exact List.length_pos_iff.mpr going
  · exact Nat.not_le.mp fun few => many (decide_eq_true few)

theorem size_takeKept_le (k : Nat) (m : Merging α) : (m.takeKept k).size ≤ m.size := by
  simp only [size, Merging.takeKept, List.length_drop]
  omega

theorem size_takeOther_le (k : Nat) (m : Merging α) : (m.takeOther k).size ≤ m.size := by
  simp only [size, Merging.takeOther, List.length_drop]
  omega

theorem size_takeKept_lt (h : ¬ m.isOver = true) : (m.takeKept 1).size < m.size := by
  have := (lengths_of_not_isOver h).2
  simp only [size, Merging.takeKept, List.length_drop]
  omega

theorem size_takeOther_lt (h : ¬ m.isOver = true) : (m.takeOther 1).size < m.size := by
  have := (lengths_of_not_isOver h).1
  simp only [size, Merging.takeOther, List.length_drop]
  omega

/-- A row and one more element, unless the row ends the merge. -/
theorem isOver_or_size_lt {row next : Merging α} (le : row.size ≤ m.size)
    (taken : ¬ row.isOver = true → next.size < row.size) :
    (if row.isOver then row else next).isOver = true ∨
      (if row.isOver then row else next).size < m.size := by
  split
  · next ended => exact Or.inl ended
  · next goes => exact Or.inr (Nat.lt_of_lt_of_le (taken goes) le)

theorem size_leapKept (m : Merging α) :
    (m.leapKept below side).1.isOver = true ∨ (m.leapKept below side).1.size < m.size :=
  isOver_or_size_lt (size_takeKept_le _ m) size_takeOther_lt

theorem size_leapOther (m : Merging α) :
    (m.leapOther below side).1.isOver = true ∨ (m.leapOther below side).1.size < m.size :=
  isOver_or_size_lt (size_takeOther_le _ m) size_takeKept_lt

/-- A leap in each run ends the merge or takes an element. -/
theorem size_leap (m : Merging α) :
    (m.leap below side).1.isOver = true ∨ (m.leap below side).1.size < m.size := by
  unfold Merging.leap
  cases side with
  | front =>
    dsimp only
    split
    · next ended => exact Or.inl ended
    · next goes =>
      have first := (size_leapKept m).resolve_left goes
      exact (size_leapOther _).imp_right fun second => Nat.lt_trans second first
  | back =>
    dsimp only
    split
    · next ended => exact Or.inl ended
    · next goes =>
      have first := (size_leapOther m).resolve_left goes
      exact (size_leapKept _).imp_right fun second => Nat.lt_trans second first

/-! ## Whole merges -/

/-- A single step takes one element from the run that is ahead. -/
theorem Sound.takeOne (respects : Respects (overtakes below side) P S) (member : ∀ x ∈ xs, P x)
    {k o : α} {kept other taken : List α} (sound : Sound S xs ⟨k :: kept, o :: other, taken⟩) :
    Sound S xs (if overtakes below side o k then Merging.takeOther 1 ⟨k :: kept, o :: other, taken⟩
      else Merging.takeKept 1 ⟨k :: kept, o :: other, taken⟩) := by
  have hk : P k := member k (sound.mem_of_kept List.mem_cons_self)
  have ho : P o := member o (sound.mem_of_other List.mem_cons_self)
  split
  · next yes =>
    refine sound.takeOther 1 fun x hx => ?_
    obtain rfl := List.mem_singleton.mp hx
    exact forall_of_head sound.kept_ascends respects.trans (respects.of_below ho hk yes)
  · next no =>
    refine sound.takeKept 1 fun x hx => ?_
    obtain rfl := List.mem_singleton.mp hx
    exact forall_of_head sound.other_ascends respects.trans
      (respects.of_not_below ho hk (Bool.eq_false_iff.mpr no))

/-- A merge with steps enough for what is left arranges all elements. -/
theorem Sound.run (respects : Respects (overtakes below side) P S) (member : ∀ x ∈ xs, P x)
    (sound : Sound S xs m) {fuel : Nat} (enough : m.size ≤ fuel) (pace : Pace) (patience : Nat) :
    Arranges S xs (Merging.run below side fuel pace patience m).1 := by
  induction fuel generalizing m pace patience with
  | zero =>
    have nothing : m.other = [] := List.length_eq_zero_iff.mp (by unfold size at enough; omega)
    have ended : m.isOver = true := by rw [isOver, nothing]; rfl
    cases pace <;> exact sound.arranges ended
  | succ fuel ih =>
    cases pace with
    | steps keptRow otherRow =>
      by_cases ended : m.isOver = true
      · unfold Merging.run
        rw [ended]
        exact sound.arranges ended
      · obtain ⟨going, many⟩ := lengths_of_not_isOver ended
        obtain ⟨kept, other, taken⟩ := m
        cases kept with
        | nil => cases many
        | cons k kept =>
          cases other with
          | nil => cases going
          | cons o other =>
            have one := sound.takeOne respects member
            unfold Merging.run
            rw [Bool.eq_false_iff.mpr ended]
            dsimp only
            by_cases yes : overtakes below side o k = true
            · rw [if_pos yes] at one ⊢
              have less := size_takeOther_lt ended
              dsimp only
              split
              · exact ih one (by omega) _ _
              · exact ih one (by omega) _ _
            · rw [if_neg yes] at one ⊢
              have less := size_takeKept_lt ended
              dsimp only
              split
              · exact ih one (by omega) _ _
              · exact ih one (by omega) _ _
    | leaps =>
      have leapt := sound.leap respects member
      unfold Merging.run
      dsimp only
      split
      · next ended => exact leapt.arranges ended
      · next goes =>
        have less := (size_leap m).resolve_left goes
        split
        · exact ih leapt (by omega) _ _
        · exact ih leapt (by omega) _ _

end

end Merging

/-! ## Two runs -/

section Runs

variable {a b : List α}

theorem mem_head?_of_mem_take {x : α} (h : x ∈ xs.take 1) : x ∈ xs.head? := by
  cases xs with
  | nil => cases h
  | cons y rest => exact Option.mem_some.mpr (List.mem_singleton.mp h).symm

/-- Two runs are merged from either end, if the first element of the right one precedes all of the left one
and the last element of the left one follows all of the right one. -/
theorem arranges_mergeTangled (respects : Respects below P R) (member : ∀ x ∈ a ++ b, P x)
    (left : a.Pairwise R) (right : b.Pairwise R) (first : ∀ y ∈ b.head?, ∀ x ∈ a, R y x)
    (last : ∀ x ∈ a.getLast?, ∀ y ∈ b, R y x) (patience : Nat) :
    Arranges R (a ++ b) (mergeTangled below patience a b).1 := by
  unfold mergeTangled
  dsimp only
  split
  · have start : Merging.Sound R (a ++ b) ⟨a, b, []⟩ :=
      ⟨(List.perm_append_comm : (b ++ a).Perm (a ++ b)), left, right, last⟩
    have begun := start.takeOther 1 fun x hx => first x (mem_head?_of_mem_take hx)
    exact begun.run (respects.overtakes .front) member (Merging.size_takeOther_le 1 _) _ _
  · have start : Merging.Sound (Side.order R .back) (a ++ b) ⟨b.reverse, a.reverse, []⟩ := by
      refine ⟨?_, List.pairwise_reverse.mpr right, List.pairwise_reverse.mpr left, ?_⟩
      · exact (List.reverse_perm a).append (List.reverse_perm b)
      · intro y hy x hx
        rw [List.getLast?_reverse] at hy
        exact first y hy x (List.mem_reverse.mp hx)
    have begun := start.takeOther 1 fun x hx y hy => by
      have ending := mem_head?_of_mem_take hx
      rw [List.head?_reverse] at ending
      exact last x ending y (List.mem_reverse.mp hy)
    have enough : (Merging.takeOther 1 ⟨b.reverse, a.reverse, []⟩).size ≤ a.length + b.length := by
      refine Nat.le_trans (Merging.size_takeOther_le 1 _) ?_
      simp only [Merging.size, List.length_reverse]
      omega
    have merged := begun.run (respects.overtakes .back) member enough (.steps 0 0) patience
    exact ⟨(List.reverse_perm _).trans merged.perm, List.pairwise_reverse.mpr merged.ascends⟩

/-- What precedes all of the right run and what follows all of the left one stays in place around the
elements that are arranged. -/
theorem Arranges.surround {a₁ a₂ b₁ b₂ c : List α} (merged : Arranges R (a₂ ++ b₁) c)
    (left : (a₁ ++ a₂).Pairwise R) (right : (b₁ ++ b₂).Pairwise R)
    (early : ∀ u ∈ a₁, ∀ z ∈ b₁ ++ b₂, R u z) (late : ∀ u ∈ a₂, ∀ z ∈ b₂, R u z) :
    Arranges R ((a₁ ++ a₂) ++ (b₁ ++ b₂)) (a₁ ++ c ++ b₂) := by
  obtain ⟨first, -, acrossLeft⟩ := List.pairwise_append.mp left
  obtain ⟨-, second, acrossRight⟩ := List.pairwise_append.mp right
  refine ⟨?_, List.pairwise_append.mpr ⟨List.pairwise_append.mpr ⟨first, merged.ascends, ?_⟩, second, ?_⟩⟩
  · calc (a₁ ++ c ++ b₂).Perm (a₁ ++ (a₂ ++ b₁) ++ b₂) :=
          (merged.perm.append_left a₁).append_right b₂
      _ = (a₁ ++ a₂) ++ (b₁ ++ b₂) := by simp only [List.append_assoc]
  · intro u hu z hz
    rcases List.mem_append.mp (merged.perm.mem_iff.mp hz) with inLeft | inRight
    · exact acrossLeft u hu z inLeft
    · exact early u hu z (List.mem_append_left _ inRight)
  · intro u hu z hz
    rcases List.mem_append.mp hu with inPlace | inside
    · exact early u inPlace z (List.mem_append_right _ hz)
    · rcases List.mem_append.mp (merged.perm.mem_iff.mp inside) with inLeft | inRight
      · exact late u inLeft z hz
      · exact acrossRight u inRight z hz

/-- The first element of the right run belongs at the place `start` of the left one, and the last element of
the left run at the place `stop` of the right one. -/
structure Overlap (R : α → α → Prop) (a b : List α) (start stop : Nat) : Prop where
  left : a.Pairwise R
  right : b.Pairwise R
  first : ∀ y ∈ b.head?, Parts R y a start
  last : ∀ x ∈ (a.drop start).getLast?, Parts R x b stop

namespace Overlap

variable {start stop : Nat}

/-- What stands before the overlap precedes all of the right run. -/
theorem early (overlap : Overlap R a b start stop) (trans : ∀ {x y z}, R x y → R y z → R x z) :
    ∀ x ∈ a.take start, ∀ y ∈ b, R x y := by
  intro x hx y hy
  cases b with
  | nil => cases hy
  | cons z rest =>
    have parts := overlap.first z rfl
    exact forall_of_head overlap.right trans (parts.before x hx) y hy

/-- What stands behind the overlap follows all of the left run that is not before it. -/
theorem late (overlap : Overlap R a b start stop) (trans : ∀ {x y z}, R x y → R y z → R x z) :
    ∀ x ∈ a.drop start, ∀ y ∈ b.drop stop, R x y := by
  intro x hx y hy
  have rise : (a.drop start).Pairwise R := overlap.left.sublist (List.drop_sublist start a)
  cases ending : (a.drop start).getLast? with
  | none =>
    rw [List.getLast?_eq_none_iff.mp ending] at hx
    cases hx
  | some z =>
    have parts := overlap.last z ending
    exact forall_of_last rise trans ending (parts.after y hy) x hx

/-- Runs that do not overlap are in order. -/
theorem append (overlap : Overlap R a b start 0) (trans : ∀ {x y z}, R x y → R y z → R x z) :
    Arranges R (a ++ b) (a ++ b) := by
  refine arranges_append overlap.left overlap.right ?_
  intro x hx y hy
  rcases List.mem_append.mp ((List.take_append_drop start a).symm ▸ hx) with inPlace | inside
  · exact overlap.early trans x inPlace y hy
  · exact overlap.late trans x inside y hy

/-- Merging the overlap arranges all elements. -/
theorem merge (respects : Respects below P R) (member : ∀ x ∈ a ++ b, P x)
    (overlap : Overlap R a b start stop) (positive : stop ≠ 0) (patience : Nat) :
    Arranges R (a ++ b) (a.take start ++
      (mergeTangled below patience (a.drop start) (b.take stop)).1 ++ b.drop stop) := by
  have left : a.take start ++ a.drop start = a := List.take_append_drop start a
  have right : b.take stop ++ b.drop stop = b := List.take_append_drop stop b
  have merged : Arranges R (a.drop start ++ b.take stop)
      (mergeTangled below patience (a.drop start) (b.take stop)).1 := by
    refine arranges_mergeTangled respects ?_ (overlap.left.sublist (List.drop_sublist start a))
      (overlap.right.sublist (List.take_sublist stop b)) ?_ ?_ patience
    · intro x hx
      refine member x (List.mem_append.mpr ?_)
      exact (List.mem_append.mp hx).imp List.mem_of_mem_drop List.mem_of_mem_take
    · intro y hy
      rw [List.head?_take, if_neg positive] at hy
      exact (overlap.first y hy).after
    · intro x hx
      exact (overlap.last x hx).before
  have around := merged.surround (left.symm ▸ overlap.left) (right.symm ▸ overlap.right)
    (right.symm ▸ overlap.early respects.trans) (overlap.late respects.trans)
  rwa [left, right] at around

end Overlap

/-- Merging two runs arranges their elements. -/
theorem arranges_mergeRuns (respects : Respects below P R) (member : ∀ x ∈ a ++ b, P x)
    (left : a.Pairwise R) (right : b.Pairwise R) (patience : Nat) :
    Arranges R (a ++ b) (mergeRuns below patience a b).1 := by
  cases b with
  | nil =>
    unfold mergeRuns
    dsimp only
    rw [List.drop_length]
    exact arranges_append left right fun x hx y hy => nomatch hy
  | cons y rest =>
    have fromLeft : ∀ x ∈ a, P x := fun x hx => member x (List.mem_append_left _ hx)
    have fromRight : ∀ x ∈ y :: rest, P x := fun x hx => member x (List.mem_append_right _ hx)
    have first := (respects.divides_not_above (fromRight y List.mem_cons_self) fromLeft left).parts_seek 0
      List.length_pos_iff.mpr
    unfold mergeRuns
    unfold holdsAt at first
    dsimp only
    generalize seek _ a.length 0 = start at first ⊢
    split
    · next inPlace =>
      have overlap : Overlap R a (y :: rest) start 0 := by
        refine ⟨left, right, fun z hz => Option.mem_some.mp hz ▸ first, ?_⟩
        intro x hx
        rw [inPlace] at hx
        cases hx
      exact overlap.append respects.trans
    · next x ending =>
      have hx : P x := fromLeft x (List.mem_of_mem_drop (List.mem_of_getLast? ending))
      have last := (respects.divides_below hx fromRight right).parts_seek
        ((y :: rest).length - 1) fun _ => Nat.lt_succ_self rest.length
      unfold holdsAt at last
      generalize seek _ (y :: rest).length ((y :: rest).length - 1) = stop at last ⊢
      have overlap : Overlap R a (y :: rest) start stop :=
        ⟨left, right, fun z hz => Option.mem_some.mp hz ▸ first,
          fun z hz => Option.mem_some.mp (ending ▸ hz) ▸ last⟩
      split
      · next zero =>
        subst zero
        exact overlap.append respects.trans
      · next positive => exact overlap.merge respects member positive patience

end Runs

end Sorting

end Reckoner
