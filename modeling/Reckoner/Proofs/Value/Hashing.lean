import Reckoner.Proofs.Value.Strict
import Reckoner.Value.HashSet

/-!
# Sets and scans

Values that are equal as numbers have one nearest double, whatever orders they are compared at
(`toDouble_eq_of_same`), so they have one hash, however doubles are hashed.  Hence a set loses nothing by
looking into one bucket only (`HashSet.contains_eq`): putting values into it one after the other keeps what
a scan keeps, which compares each value with all that were kept before (`HashSet.values_ofList`).

Equality as a number is not transitive, so what a scan keeps depends on the order of the values.  But it
always represents them: no two values that are kept are equal, and each value is equal to one that is kept
(`represents_scanned`).
-/

namespace Reckoner

namespace Value

variable {a b v : Value} {kept values : List Value} {hash : Double → Int}

/-! ## Equality and hashes -/

theorem toDouble_eq_of_same (h : a.same b = true) : a.toDouble = b.toDouble :=
  (compare_eq_eq_iff.mp (beq_iff_eq.mp h)).1

/-- No integer is rounded to a not-a-number. -/
theorem eq_nan_of_toDouble (h : a.toDouble = .nan) : a = .double .nan := by
  cases a with
  | int o n fits => cases h
  | double x =>
    obtain rfl : x = .nan := h
    rfl

theorem same_comm (a b : Value) : a.same b = b.same a := by
  rw [same, same, ← compare_swap a b]
  cases a.compare b <;> rfl

theorem same_self (a : Value) : a.same a = true := by
  rw [same, compare_self]
  rfl

/-! ## Scans -/

/-- One step of a scan: the value is kept unless one that is equal as a number has been kept. -/
def keep (kept : List Value) (v : Value) : List Value :=
  if kept.any (·.same v) then kept else kept ++ [v]

/-- The values that a scan of the list keeps. -/
def scanned (values : List Value) : List Value := values.foldl keep []

/-- Some of the values, in their order, stand for all of them. -/
structure Represents (kept values : List Value) : Prop where
  sublist : kept.Sublist values
  /-- No two values that are kept are equal as numbers. -/
  apart : kept.Pairwise fun k l => k.same l = false ∧ l.same k = false
  /-- Each value is equal to one that is kept. -/
  covered : ∀ v ∈ values, ∃ k ∈ kept, k.same v = true

theorem Represents.keep (h : Represents kept values) (v : Value) :
    Represents (keep kept v) (values ++ [v]) := by
  unfold Value.keep
  split
  case isTrue met =>
    obtain ⟨k, hk, equal⟩ := List.any_eq_true.mp met
    refine ⟨h.sublist.trans (List.sublist_append_left _ _), h.apart, ?_⟩
    intro w hw
    rcases List.mem_append.mp hw with before | last
    · exact h.covered w before
    · obtain rfl := List.mem_singleton.mp last
      exact ⟨k, hk, equal⟩
  case isFalse new =>
    have other : ∀ k ∈ kept, k.same v = false := by
      intro k hk
      rw [← Bool.not_eq_true]
      intro equal
      exact new (List.any_eq_true.mpr ⟨k, hk, equal⟩)
    refine ⟨h.sublist.append (List.Sublist.refl _), ?_, ?_⟩
    · refine List.pairwise_append.mpr ⟨h.apart, List.pairwise_singleton _ _, ?_⟩
      intro k hk l hl
      obtain rfl := List.mem_singleton.mp hl
      exact ⟨other k hk, same_comm l k ▸ other k hk⟩
    · intro w hw
      rcases List.mem_append.mp hw with before | last
      · obtain ⟨k, hk, equal⟩ := h.covered w before
        exact ⟨k, List.mem_append_left _ hk, equal⟩
      · obtain rfl := List.mem_singleton.mp last
        exact ⟨w, List.mem_append_right _ last, same_self w⟩

theorem Represents.foldl (h : Represents kept values) (more : List Value) :
    Represents (more.foldl Value.keep kept) (values ++ more) := by
  induction more generalizing kept values with
  | nil =>
    rw [List.append_nil]
    exact h
  | cons v more ih =>
    have step := ih (h.keep v)
    rw [List.append_assoc] at step
    exact step

/-- What a scan keeps stands for all values. -/
theorem represents_scanned (values : List Value) : Represents (scanned values) values := by
  have start : Represents [] [] := ⟨List.Sublist.refl _, List.Pairwise.nil, fun v h => by cases h⟩
  exact start.foldl values

/-! ## Sets -/

namespace HashSet

/-- In the bucket of its hash a value meets all that are equal to it. -/
theorem contains_eq (set : HashSet hash) (v : Value) :
    set.contains v = set.values.any (·.same v) := by
  rw [contains, set.bucket_eq, List.any_filter]
  congr 1
  funext k
  -- A value of another hash is not equal.
  cases equal : k.same v with
  | false => rw [Bool.and_false]
  | true =>
    have code : k.hashBy hash = v.hashBy hash := congrArg hash (toDouble_eq_of_same equal)
    rw [decide_eq_true code]
    rfl

/-- Putting a value into a set is a step of a scan. -/
theorem values_insert (set : HashSet hash) (v : Value) :
    (set.insert v).values = keep set.values v := by
  unfold insert keep
  rw [set.contains_eq v]
  split <;> rfl

/-- The set of a list holds what a scan of the list keeps. -/
theorem values_ofList (hash : Double → Int) (values : List Value) :
    (ofList hash values).values = scanned values :=
  (List.foldl_hom HashSet.values fun set v => (values_insert set v).symm).symm

end HashSet

/-- Values that are equal as numbers are both not-a-number or have one nearest double, so they have one
hash.  Hence, however doubles are hashed, a set of values put in one after the other holds what a scan
keeps, and that stands for all of them. -/
theorem hashing_agrees (hash : Double → Int) (a b : Value) (values : List Value) :
    (a.same b = true →
      (a = .double .nan ∧ b = .double .nan ∨ a.toDouble ≠ .nan ∧ a.toDouble = b.toDouble) ∧
        a.hashBy hash = b.hashBy hash) ∧
    (HashSet.ofList hash values).values = scanned values ∧
    Represents (HashSet.ofList hash values).values values := by
  refine ⟨?_, HashSet.values_ofList hash values, ?_⟩
  · intro equal
    have one := toDouble_eq_of_same equal
    refine ⟨?_, congrArg hash one⟩
    by_cases word : a.toDouble = .nan
    · exact Or.inl ⟨eq_nan_of_toDouble word, eq_nan_of_toDouble (one ▸ word)⟩
    · exact Or.inr ⟨word, one⟩
  · rw [HashSet.values_ofList]
    exact represents_scanned values

end Value

end Reckoner
