import Reckoner.Proofs.Sorting.Merging
import Reckoner.Sorting.Runs

/-!
# Sorting ascends

Sorting arranges the elements of a list in every order that the comparison never contradicts
(`arranges_sort`), whether or not the comparison is transitive.

A run begins with a row of the list that ascends as it stands, or descends and is reversed, and is filled
up by inserting the elements that follow (`begins_nextRun`).  The runs that wait to be merged hold all
elements taken so far, each run in ascending order (`Holds`).  Taking a further run, merging what is due
and merging what is left at the end keep this, in whatever order the depths of the boundaries and the
lengths of the runs have the merges done: none of the proofs looks at them.
-/

namespace Reckoner

namespace Sorting

variable {α : Type} {below : α → α → Bool} {P : α → Prop} {R : α → α → Prop} {xs ys : List α}

/-! ## Runs -/

/-- Inserting an element into a run arranges the elements. -/
theorem arranges_insert (respects : Respects below P R) {run : List α} {x : α}
    (member : ∀ y ∈ run, P y) (hx : P x) (ascends : run.Pairwise R) :
    Arranges R (x :: run) (insert below run x) := by
  have parts := (respects.divides_not_above hx member ascends).parts
    (isBoundary_bisect _ (Nat.zero_le run.length))
  unfold insert
  unfold holdsAt at parts
  dsimp only
  generalize bisect _ 0 run.length = i at parts ⊢
  have whole : run.take i ++ run.drop i = run := List.take_append_drop i run
  have halves := List.pairwise_append.mp (whole.symm ▸ ascends)
  refine ⟨?_, ?_⟩
  · exact List.perm_middle.trans (by rw [whole])
  · refine List.pairwise_append.mpr ⟨halves.1, List.pairwise_cons.mpr ⟨parts.after, halves.2.1⟩, ?_⟩
    intro y hy z hz
    rcases List.mem_cons.mp hz with rfl | later
    · exact parts.before y hy
    · exact halves.2.2 y hy z later

/-- A descent descends from the element that it begins after, and leaves the rest of the list. -/
theorem descent_spec (respects : Respects below P R) {x : α} (hx : P x) (member : ∀ y ∈ xs, P y) :
    (descent below x xs).1 ++ (descent below x xs).2 = xs ∧
      (x :: (descent below x xs).1).Pairwise fun u v => R v u := by
  induction xs generalizing x with
  | nil => exact ⟨rfl, List.pairwise_singleton _ _⟩
  | cons y rest ih =>
    have hy : P y := member y List.mem_cons_self
    unfold descent
    split
    · next yes =>
      obtain ⟨parts, descends⟩ := ih hy fun z hz => member z (List.mem_cons_of_mem _ hz)
      refine ⟨congrArg (List.cons y) parts, List.pairwise_cons.mpr ⟨?_, descends⟩⟩
      exact forall_of_head descends (fun first second => respects.trans second first)
        (respects.of_below hy hx yes)
    · exact ⟨rfl, List.pairwise_singleton _ _⟩

/-- An ascent ascends from the element that it begins after, and leaves the rest of the list. -/
theorem ascent_spec (respects : Respects below P R) {x : α} (hx : P x) (member : ∀ y ∈ xs, P y) :
    (ascent below x xs).1 ++ (ascent below x xs).2 = xs ∧
      (x :: (ascent below x xs).1).Pairwise R := by
  induction xs generalizing x with
  | nil => exact ⟨rfl, List.pairwise_singleton _ _⟩
  | cons y rest ih =>
    have hy : P y := member y List.mem_cons_self
    unfold ascent
    split
    · exact ⟨rfl, List.pairwise_singleton _ _⟩
    · next no =>
      obtain ⟨parts, ascends⟩ := ih hy fun z hz => member z (List.mem_cons_of_mem _ hz)
      refine ⟨congrArg (List.cons y) parts, List.pairwise_cons.mpr ⟨?_, ascends⟩⟩
      exact forall_of_head ascends respects.trans
        (respects.of_not_below hy hx (Bool.eq_false_iff.mpr no))

/-- A beginning of a list, arranged, and what is left of the list after it. -/
structure Begins (R : α → α → Prop) (xs run rest : List α) : Prop where
  perm : (run ++ rest).Perm xs
  ascends : run.Pairwise R

theorem begins_leadingRun (respects : Respects below P R) (member : ∀ x ∈ xs, P x) :
    Begins R xs (leadingRun below xs).1 (leadingRun below xs).2 := by
  match xs with
  | [] => exact ⟨List.Perm.refl _, List.Pairwise.nil⟩
  | [x] => exact ⟨List.Perm.refl _, List.pairwise_singleton _ _⟩
  | x :: y :: rest =>
    have hx : P x := member x List.mem_cons_self
    have hy : P y := member y (List.mem_cons_of_mem _ List.mem_cons_self)
    have others : ∀ z ∈ rest, P z := fun z hz =>
      member z (List.mem_cons_of_mem _ (List.mem_cons_of_mem _ hz))
    rw [leadingRun]
    split
    · next yes =>
      obtain ⟨parts, descends⟩ := descent_spec respects hy others
      refine ⟨?_, List.pairwise_reverse.mpr (List.pairwise_cons.mpr ⟨?_, descends⟩)⟩
      · refine ((List.reverse_perm _).append_right _).trans ?_
        exact List.Perm.of_eq (congrArg (fun zs => x :: y :: zs) parts)
      · exact forall_of_head descends (fun first second => respects.trans second first)
          (respects.of_below hy hx yes)
    · next no =>
      obtain ⟨parts, ascends⟩ := ascent_spec respects hy others
      refine ⟨List.Perm.of_eq (congrArg (fun zs => x :: y :: zs) parts),
        List.pairwise_cons.mpr ⟨?_, ascends⟩⟩
      exact forall_of_head ascends respects.trans
        (respects.of_not_below hy hx (Bool.eq_false_iff.mpr no))

theorem leadingRun_ne_nil (x : α) (rest : List α) : (leadingRun below (x :: rest)).1 ≠ [] := by
  cases rest with
  | nil => exact List.cons_ne_nil _ _
  | cons y rest =>
    rw [leadingRun]
    split <;> simp

theorem arranges_foldl_insert (respects : Respects below P R) {run : List α}
    (member : ∀ x ∈ run ++ xs, P x) (ascends : run.Pairwise R) :
    Arranges R (run ++ xs) (xs.foldl (insert below) run) := by
  induction xs generalizing run with
  | nil => exact ⟨List.Perm.of_eq (List.append_nil run).symm, ascends⟩
  | cons y rest ih =>
    have inserted : Arranges R (y :: run) (insert below run y) :=
      arranges_insert respects (fun z hz => member z (List.mem_append_left _ hz))
        (member y (List.mem_append_right _ List.mem_cons_self)) ascends
    have moved : (insert below run y ++ rest).Perm (run ++ y :: rest) :=
      (inserted.perm.append_right rest).trans List.perm_middle.symm
    have folded := ih (fun z hz => member z (moved.mem_iff.mp hz)) inserted.ascends
    exact ⟨folded.perm.trans moved, folded.ascends⟩

theorem begins_nextRun (respects : Respects below P R) (member : ∀ x ∈ xs, P x) (least : Nat) :
    Begins R xs (nextRun below least xs).1 (nextRun below least xs).2 := by
  have leading := begins_leadingRun respects member
  unfold nextRun
  dsimp only
  generalize leadingRun below xs = found at leading ⊢
  obtain ⟨run, rest⟩ := found
  have parts : rest.take (least - run.length) ++ rest.drop (least - run.length) = rest :=
    List.take_append_drop _ rest
  have filled : Arranges R (run ++ rest.take (least - run.length))
      ((rest.take (least - run.length)).foldl (insert below) run) := by
    refine arranges_foldl_insert respects (fun x hx => member x (leading.perm.mem_iff.mp ?_))
      leading.ascends
    exact (List.Sublist.refl run).append (List.take_sublist _ rest) |>.subset hx
  refine ⟨?_, filled.ascends⟩
  refine (filled.perm.append_right _).trans ?_
  rw [List.append_assoc, parts]
  exact leading.perm

/-- A run takes at least one element. -/
theorem length_nextRun_lt (respects : Respects below P R) (least : Nat) (member : ∀ x ∈ xs, P x)
    (more : xs ≠ []) : (nextRun below least xs).2.length < xs.length := by
  have lengths := (begins_leadingRun respects member).perm.length_eq
  rw [List.length_append] at lengths
  have first : 0 < (leadingRun below xs).1.length := by
    cases xs with
    | nil => exact absurd rfl more
    | cons x rest => exact List.length_pos_iff.mpr (leadingRun_ne_nil x rest)
  have fewer : (nextRun below least xs).2.length ≤ (leadingRun below xs).2.length := by
    unfold nextRun
    exact Nat.le_trans (Nat.le_of_eq List.length_drop) (Nat.sub_le _ _)
  omega

/-! ## Waiting runs -/

/-- The elements of the waiting runs. -/
def contents (waiting : List (Waiting α)) : List α := waiting.flatMap (·.elements)

/-- Waiting runs with the elements of a list, each in ascending order. -/
structure Holds (R : α → α → Prop) (xs : List α) (waiting : List (Waiting α)) : Prop where
  perm : (contents waiting).Perm xs
  ascends : ∀ run ∈ waiting, run.elements.Pairwise R

variable {waiting : List (Waiting α)}

theorem Holds.reorder {others : List (Waiting α)} (holds : Holds R xs waiting)
    (same : others.Perm waiting) : Holds R xs others :=
  ⟨(same.flatMap_right _).trans holds.perm, fun run mem => holds.ascends run (same.mem_iff.mp mem)⟩

/-- Joining two runs keeps the elements in ascending runs. -/
theorem Holds.join (respects : Respects below P R) (member : ∀ x ∈ xs, P x)
    {left right : Waiting α} (holds : Holds R xs (right :: left :: waiting)) (patience : Nat) :
    Holds R xs ((Waiting.join below patience left right).1 :: waiting) := by
  obtain ⟨rightAscends, earlier⟩ := List.forall_mem_cons.mp holds.ascends
  obtain ⟨leftAscends, others⟩ := List.forall_mem_cons.mp earlier
  have inside : ∀ x ∈ left.elements ++ right.elements, P x := by
    intro x hx
    refine member x (holds.perm.mem_iff.mp ?_)
    rcases List.mem_append.mp hx with inLeft | inRight
    · exact List.mem_append_right _ (List.mem_append_left _ inLeft)
    · exact List.mem_append_left _ inRight
  have merged : Arranges R (left.elements ++ right.elements)
      (Waiting.join below patience left right).1.elements :=
    arranges_mergeRuns respects inside leftAscends rightAscends patience
  refine ⟨List.Perm.trans ?_ holds.perm, List.forall_mem_cons.mpr ⟨merged.ascends, others⟩⟩
  change ((Waiting.join below patience left right).1.elements ++ contents waiting).Perm
    (right.elements ++ (left.elements ++ contents waiting))
  refine (merged.perm.append_right _).trans ?_
  rw [List.append_assoc]
  exact List.perm_append_comm_assoc _ _ _

/-- How deep the boundary of a run lies does not matter to its elements. -/
theorem Holds.deepen {last : Waiting α} (holds : Holds R xs (last :: waiting)) (depth : Nat) :
    Holds R xs ({ last with depth } :: waiting) :=
  ⟨holds.perm, List.forall_mem_cons.mpr (List.forall_mem_cons.mp holds.ascends)⟩

/-- Merging what is due keeps the elements in ascending runs. -/
theorem Holds.settle (respects : Respects below P R) (member : ∀ x ∈ xs, P x) {last : Waiting α}
    (holds : Holds R xs (last :: waiting)) (depth patience : Nat) :
    Holds R xs (settle below depth patience last waiting).1 := by
  induction waiting generalizing last patience with
  | nil => exact holds.deepen depth
  | cons previous rest ih =>
    unfold Sorting.settle
    split
    · exact ih (holds.join respects member patience) _
    · exact holds.deepen depth

/-- A further run brings its elements. -/
theorem Holds.push (holds : Holds R xs waiting) (run : Waiting α) (ascends : run.elements.Pairwise R) :
    Holds R (xs ++ run.elements) (run :: waiting) := by
  refine ⟨?_, List.forall_mem_cons.mpr ⟨ascends, holds.ascends⟩⟩
  exact (holds.perm.append_left run.elements).trans List.perm_append_comm

theorem Holds.transport (holds : Holds R xs waiting) (same : xs.Perm ys) : Holds R ys waiting :=
  ⟨holds.perm.trans same, holds.ascends⟩

/-- Cutting a list into runs, with rounds enough for its elements, keeps all elements in ascending runs. -/
theorem Holds.gather (respects : Respects below P R) {done : List α} (n : Nat)
    (member : ∀ x ∈ done ++ xs, P x) (holds : Holds R done waiting) {fuel : Nat}
    (enough : xs.length ≤ fuel) (patience : Nat) :
    Holds R (done ++ xs) (gather below n fuel patience waiting xs).1 := by
  induction fuel generalizing xs waiting done patience with
  | zero =>
    rw [List.length_eq_zero_iff.mp (Nat.le_zero.mp enough), List.append_nil]
    exact holds
  | succ fuel ih =>
    cases xs with
    | nil =>
      rw [List.append_nil]
      exact holds
    | cons x rest =>
      have left : ∀ y ∈ done, P y := fun y hy => member y (List.mem_append_left _ hy)
      have right : ∀ y ∈ x :: rest, P y := fun y hy => member y (List.mem_append_right _ hy)
      have begun := begins_nextRun respects right (leastRun n 0)
      have shorter := length_nextRun_lt respects (leastRun n 0) right (List.cons_ne_nil x rest)
      unfold Sorting.gather
      dsimp only
      generalize nextRun below (leastRun n 0) (x :: rest) = next at begun shorter ⊢
      obtain ⟨run, others⟩ := next
      have moved : (done ++ run ++ others).Perm (done ++ x :: rest) := by
        rw [List.append_assoc]
        exact begun.perm.append_left done
      have fewer : others.length ≤ fuel := by
        have : rest.length + 1 ≤ fuel + 1 := enough
        have : others.length < rest.length + 1 := shorter
        omega
      -- Whatever has become of the runs before, this run waits after them.
      have onward {before : List (Waiting α)} (settled : Holds R done before) (start patience : Nat) :
          Holds R (done ++ x :: rest)
            (Sorting.gather below n fuel patience (⟨start, run, 0⟩ :: before) others).1 := by
        have pushed := settled.push ⟨start, run, 0⟩ begun.ascends
        have gathered := ih (fun y hy => member y (moved.mem_iff.mp hy)) pushed fewer patience
        exact gathered.transport moved
      cases waiting with
      | nil => exact onward holds 0 patience
      | cons last before =>
        have settled := holds.settle respects left
          (boundaryDepth n last.start last.elements.length run.length) patience
        exact onward settled _ _

theorem Holds.arranges {run : Waiting α} (holds : Holds R xs [run]) : Arranges R xs run.elements := by
  have whole : contents [run] = run.elements := List.append_nil _
  exact ⟨whole ▸ holds.perm, holds.ascends run List.mem_cons_self⟩

/-- Merging all runs arranges their elements. -/
theorem Holds.mergeAll (respects : Respects below P R) (member : ∀ x ∈ xs, P x)
    (holds : Holds R xs waiting) (patience : Nat) :
    Arranges R xs (mergeAll below patience waiting) := by
  fun_induction Sorting.mergeAll below patience waiting with
  | case1 => exact ⟨holds.perm, List.Pairwise.nil⟩
  | case2 patience run => exact holds.arranges
  | case3 patience c b => exact (holds.join respects member patience).arranges
  | case4 patience c b a rest less joined patience' eq ih =>
    -- The two runs before the last one are joined.
    have last : ([b, a] ++ c :: rest).Perm (c :: ([b, a] ++ rest)) := List.perm_middle
    have moved := holds.reorder last
    have together := moved.join respects member patience
    rw [eq] at together
    exact ih (together.reorder (List.Perm.swap _ _ _))
  | case5 patience c b a rest less joined patience' eq ih =>
    have together := holds.join respects member patience
    rw [eq] at together
    exact ih together

/-- Sorting arranges the elements in every order that the comparison never contradicts. -/
theorem arranges_sort (respects : Respects below P R) (member : ∀ x ∈ xs, P x) :
    Arranges R xs (sort below xs) := by
  have nothing : Holds R ([] : List α) [] := ⟨List.Perm.refl _, fun run mem => nomatch mem⟩
  have gathered := nothing.gather respects xs.length member (Nat.le_refl xs.length) longRow
  exact gathered.mergeAll respects member _

end Sorting

end Reckoner
