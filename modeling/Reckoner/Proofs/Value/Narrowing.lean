import Reckoner.Proofs.Double.Quotient
import Reckoner.Value.Promotion

/-!
# The narrowest order

Between them the orders hold all integers from the least signed to the greatest unsigned one
(`exists_fits`).  Such an integer is narrowed to the first order that holds it, and no order of a lower
rank does (`exists_isNarrowest`).  All other integers are narrowed to nothing (`narrow?_of_beyond`).  A double that
is an integer is moved down like the integer, or stays (`demote_of_isInteger`).
-/

namespace Reckoner

namespace Value

variable {o : IntOrder} {n : Int} {v : Value}

/-- Between them the orders hold all integers from the least signed to the greatest unsigned one. -/
theorem exists_fits (least : IntOrder.i128.low ≤ n) (most : n ≤ IntOrder.u128.high) :
    ∃ q : IntOrder, q.Fits n := by
  rcases Int.lt_or_le n 0 with negative | nonneg
  · exact ⟨.i128, least, Int.le_trans (Int.le_of_lt negative) (by decide)⟩
  · exact ⟨.u128, nonneg, most⟩

/-- Between these bounds lies whatever an order holds. -/
theorem within_of_fits (h : o.Fits n) : IntOrder.i128.low ≤ n ∧ n ≤ IntOrder.u128.high := by
  have least : IntOrder.i128.low ≤ o.low := by cases o <;> decide
  have most : o.high ≤ IntOrder.u128.high := by cases o <;> decide
  exact ⟨Int.le_trans least h.1, Int.le_trans h.2 most⟩

/-- What is narrowed is the integer at an order that holds it. -/
theorem eq_int_of_narrow? (h : narrow? n = some v) : ∃ p hp, v = int p n hp := by
  obtain ⟨p, -, own⟩ := List.exists_of_findSome?_eq_some h
  split at own
  case isTrue hp => exact ⟨p, hp, (Option.some.inj own).symm⟩
  case isFalse => cases own

/-- An integer that some order holds is narrowed to the integer at an order. -/
theorem exists_narrow?_eq_some (h : o.Fits n) : ∃ p hp, narrow? n = some (int p n hp) := by
  have listed : o ∈ IntOrder.all := by cases o <;> decide
  have found : (narrow? n).isSome = true :=
    List.findSome?_isSome_iff.mpr ⟨o, listed, by rw [dif_pos h]; rfl⟩
  obtain ⟨v, narrowed⟩ := Option.isSome_iff_exists.mp found
  obtain ⟨p, hp, rfl⟩ := eq_int_of_narrow? narrowed
  exact ⟨p, hp, narrowed⟩

/-- The value is the integer at the first order that holds it. -/
def IsNarrowest (n : Int) (v : Value) : Prop :=
  ∃ o h, v = int o n h ∧ ∀ p : IntOrder, p.rank < o.rank → ¬ p.Fits n

/-- The first order that holds an integer is found. -/
theorem isNarrowest_of_narrow? (h : narrow? n = some v) : v.IsNarrowest n := by
  have sorted : IntOrder.all.Pairwise (·.rank < ·.rank) := by decide
  obtain ⟨before, o, behind, listed, found, none⟩ := List.findSome?_eq_some_iff.mp h
  split at found
  case isFalse => cases found
  case isTrue fits =>
    refine ⟨o, fits, (Option.some.inj found).symm, ?_⟩
    intro p lower held
    have mem : p ∈ before ++ o :: behind := by
      rw [← listed]
      cases p <;> decide
    rw [listed, List.pairwise_append, List.pairwise_cons] at sorted
    rcases List.mem_append.mp mem with early | late
    · have missed := none p early
      rw [dif_pos held] at missed
      cases missed
    · rcases List.mem_cons.mp late with rfl | late
      · exact absurd lower (Nat.lt_irrefl _)
      · exact absurd (sorted.2.1.1 p late) (Nat.lt_asymm lower)

theorem exists_isNarrowest (least : IntOrder.i128.low ≤ n) (most : n ≤ IntOrder.u128.high) :
    ∃ v, narrow? n = some v ∧ v.IsNarrowest n := by
  obtain ⟨o, fits⟩ := exists_fits least most
  obtain ⟨p, hp, narrowed⟩ := exists_narrow?_eq_some fits
  exact ⟨_, narrowed, isNarrowest_of_narrow? narrowed⟩

/-- No order holds anything beyond. -/
theorem narrow?_of_beyond (beyond : ¬ (IntOrder.i128.low ≤ n ∧ n ≤ IntOrder.u128.high)) :
    narrow? n = none :=
  List.findSome?_eq_none_iff.mpr fun _ _ => dif_neg fun fits => beyond (within_of_fits fits)

/-- There is one value at the first order that holds an integer. -/
theorem narrow?_of_isNarrowest (h : v.IsNarrowest n) : narrow? n = some v := by
  obtain ⟨o, fits, rfl, first⟩ := h
  obtain ⟨p, hp, narrowed⟩ := exists_narrow?_eq_some fits
  obtain ⟨q, hq, same, before⟩ := isNarrowest_of_narrow? narrowed
  obtain ⟨rfl, -⟩ := int.inj same
  have ranks : o.rank = p.rank := by
    have notBelow : ¬ p.rank < o.rank := fun lower => first p lower hp
    have notAbove : ¬ o.rank < p.rank := fun lower => before o lower fits
    omega
  obtain rfl := IntOrder.rank_injective ranks
  exact narrowed

/-- A double that is an integer moves down to the first order that holds it. -/
theorem demote_of_isInteger {x : Double} {k : Int} (whole : x.IsInteger k) :
    demote (.double x) = .ok ((narrow? k).getD (.double x)) := by
  obtain ⟨integer, nothing⟩ := whole.truncated_eq
  have tolerated : 0 < fractionTolerance := by decide +kernel
  have inside : ¬ (!true) = true := by decide
  rw [demote, whole.finite, nothing, if_neg inside, if_pos tolerated, integer]

end Value

end Reckoner
