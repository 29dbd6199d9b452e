import Mathlib.Data.List.Chain
import Mathlib.Data.List.TakeWhile
import Reckoner.Proofs.Numeral.Decimal
import Reckoner.Text.Letter

/-!
# Letters and numerals

The tables of letters and of numerals list where a set of characters begins and where it ends.  Two
boundaries next to each other enclose a span, and a member of the set lies in one of them
(`exists_span_of_within`).  The spans of both tables ascend, so that one pass over them shows that none of the
one table meets one of the other (`apart_of_liesApart`).  Hence a character with a numeric value, a digit of
another script among them, begins no name (`isLetter_of_isNumeric`).
-/

namespace Reckoner

namespace Text

/-- The members of a set by its boundaries: from each first one on, up to before the next one behind it. -/
def spans : List Nat → List (Nat × Nat)
  | first :: next :: rest => (first, next) :: spans rest
  | _ => []

/-- Does every span of the second list lie in a gap of the first?  Both lists ascend, so that a span of the
first one which ends before a span of the second one is not needed again. -/
def liesApart : List (Nat × Nat) → List (Nat × Nat) → Bool
  | _, [] => true
  | ss, t :: ts =>
    let rest := ss.dropWhile (·.2 ≤ t.1)
    rest.head?.all (t.2 ≤ ·.1) && liesApart rest ts

theorem spans_sublist (bs : List Nat) : ((spans bs).map Prod.fst).Sublist bs := by
  fun_induction spans bs with
  | case1 first next rest ih => exact (ih.cons next).cons_cons first
  | case2 bs short => exact List.nil_sublist bs

theorem spans_ascend {bs : List Nat} (sorted : bs.Pairwise (· < ·)) :
    (spans bs).Pairwise fun s t => s.1 ≤ t.1 :=
  (List.pairwise_map.mp (sorted.sublist (spans_sublist bs))).imp Nat.le_of_lt

/-- A member of a set lies in one of its spans, if the last one is closed. -/
theorem exists_span_of_within {bs : List Nat} {c : Char} (sorted : bs.Pairwise (· < ·))
    (closed : bs.length % 2 = 0) (h : within bs c = true) :
    ∃ span ∈ spans bs, span.1 ≤ c.toNat ∧ c.toNat < span.2 := by
  fun_induction spans bs with
  | case1 first next rest ih =>
    obtain ⟨low, later⟩ := List.pairwise_cons.mp sorted
    by_cases passed : next ≤ c.toNat
    · have first' : first ≤ c.toNat := Nat.le_of_lt (Nat.lt_of_lt_of_le (low next List.mem_cons_self) passed)
      have rest' : within rest c = true := by
        simpa [within, List.countP_cons, first', passed, Nat.add_assoc] using h
      obtain ⟨span, mem, inside⟩ := ih (List.pairwise_cons.mp later).2 (by simpa [Nat.add_assoc] using closed) rest'
      exact ⟨span, List.mem_cons_of_mem _ mem, inside⟩
    · refine ⟨(first, next), List.mem_cons_self, ?_, Nat.lt_of_not_le passed⟩
      by_contra before
      -- No boundary has been passed.
      have none : (first :: next :: rest).countP (· ≤ c.toNat) = 0 := by
        refine List.countP_eq_zero.mpr ?_
        intro b hb
        have least : first ≤ b := by
          rcases List.mem_cons.mp hb with rfl | hb
          · exact Nat.le_refl _
          · exact Nat.le_of_lt (low b hb)
        rw [decide_eq_true_eq]
        exact fun reached => before (Nat.le_trans least reached)
      rw [within, none] at h
      cases h
  | case2 bs short =>
    match bs with
    | [] => cases h
    | [b] => cases closed
    | first :: next :: rest => exact absurd rfl (short first next rest)

theorem apart_of_liesApart {ss ts : List (Nat × Nat)} (hs : ss.Pairwise fun s t => s.1 ≤ t.1)
    (ht : ts.Pairwise fun s t => s.1 ≤ t.1) (h : liesApart ss ts = true) :
    ∀ s ∈ ss, ∀ t ∈ ts, s.2 ≤ t.1 ∨ t.2 ≤ s.1 := by
  induction ts generalizing ss with
  | nil => exact fun _ _ _ mem => absurd mem List.not_mem_nil
  | cons t ts ih =>
    obtain ⟨first, later⟩ := List.pairwise_cons.mp ht
    obtain ⟨next, others⟩ := Bool.and_eq_true_iff.mp h
    intro s mem u hu
    have kept := hs.sublist (List.dropWhile_sublist (·.2 ≤ t.1))
    rw [← List.takeWhile_append_dropWhile (p := (·.2 ≤ t.1)) (l := ss)] at mem
    rcases List.mem_append.mp mem with early | late
    · -- What ends before one span ends before all later ones.
      have ended : s.2 ≤ t.1 := by simpa using List.mem_takeWhile_imp early
      rcases List.mem_cons.mp hu with rfl | hu
      · exact Or.inl ended
      · exact Or.inl (Nat.le_trans ended (first u hu))
    · rcases List.mem_cons.mp hu with rfl | hu
      · right
        cases rest : ss.dropWhile (·.2 ≤ u.1) with
        | nil =>
          rw [rest] at late
          cases late
        | cons r rs =>
          rw [rest] at late kept next
          have begins : u.2 ≤ r.1 := of_decide_eq_true next
          rcases List.mem_cons.mp late with rfl | late
          · exact begins
          · exact Nat.le_trans begins ((List.pairwise_cons.mp kept).1 s late)
      · exact ih kept later others s late u hu

/-- A character with a numeric value is no letter: the spans of either table lie in gaps of the other. -/
theorem isLetter_of_isNumeric {c : Char} (h : isNumeric c = true) : isLetter c = false := by
  by_contra letter
  rw [Bool.not_eq_false] at letter
  unfold isNumeric at h
  unfold isLetter at letter
  by_cases small : c.toNat < 128
  · rw [if_pos small] at h letter
    have digit := isDigit_iff.mp h
    rcases Bool.or_eq_true_iff.mp letter with upper | lower
    · have within : 65 ≤ c.toNat ∧ c.toNat ≤ 90 := of_decide_eq_true upper
      omega
    · have least : 97 ≤ c.toNat := of_decide_eq_true (Bool.and_eq_true_iff.mp lower).1
      omega
  · rw [if_neg small] at h letter
    have letters : letterBoundaries.Pairwise (· < ·) :=
      List.isChain_iff_pairwise.mp (by decide +kernel)
    have numerics : numericBoundaries.Pairwise (· < ·) :=
      List.isChain_iff_pairwise.mp (by decide +kernel)
    have apart := apart_of_liesApart (spans_ascend letters) (spans_ascend numerics) (by decide +kernel)
    obtain ⟨s, hs, low, high⟩ := exists_span_of_within letters (by decide +kernel) letter
    obtain ⟨t, ht, low', high'⟩ := exists_span_of_within numerics (by decide +kernel) h
    have := apart s hs t ht
    omega

end Text

end Reckoner
