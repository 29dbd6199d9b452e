import Reckoner.Token.Scan

/-!
# How the character classes lie to each other

Blanks end every token because no token goes on with one: a blank is no digit of any base, no sign, no
point and no underscore (`ne_of_isBlank`), and it does not continue a name
(`continuesName_of_isBlank`).  The last fact reaches into the tables of letters and numerals.  The
blanks beyond the first 128 code points lie in four gaps of each table, and inside a gap the number of
boundaries passed is constant (`countP_le_eq_of_between`), so that each gap is settled at its two ends.
-/

namespace Reckoner

namespace Text

/-- A blank differs from every character that is none. -/
theorem ne_of_isBlank {c d : Char} (hc : isBlank c = true) (hd : isBlank d = false) : c ≠ d := by
  rintro rfl
  rw [hc] at hd
  exact Bool.noConfusion hd

/-- No blank lies between two visible characters of the first 128. -/
theorem not_between_of_isBlank {c d e : Char} (h : isBlank c = true) (hd : 33 ≤ d.toNat)
    (he : e.toNat ≤ 126) : (decide (d ≤ c) && decide (c ≤ e)) = false := by
  simp only [isBlank, Bool.or_eq_true, Bool.and_eq_true, decide_eq_true_eq] at h
  simp only [Bool.and_eq_false_iff, decide_eq_false_iff_not, Char.le_def, UInt32.le_iff_toNat_le]
  change ¬ d.toNat ≤ c.toNat ∨ ¬ c.toNat ≤ e.toNat
  omega

/-- A blank is no decimal digit. -/
theorem isDigit_of_isBlank {c : Char} (h : isBlank c = true) : isDigit c = false :=
  not_between_of_isBlank h (by decide) (by decide)

/-- Between two places with the same number of boundaries below them that number does not change. -/
theorem countP_le_eq_of_between {bs : List Nat} {k lo n hi : Nat}
    (hlo : bs.countP (· ≤ lo) = k) (hhi : bs.countP (· ≤ hi) = k) (hn : lo ≤ n) (hn' : n ≤ hi) :
    bs.countP (· ≤ n) = k := by
  have lower : bs.countP (· ≤ lo) ≤ bs.countP (· ≤ n) :=
    List.countP_mono_left fun b _ hb => by
      simp only [decide_eq_true_eq] at hb ⊢
      exact Nat.le_trans hb hn
  have upper : bs.countP (· ≤ n) ≤ bs.countP (· ≤ hi) :=
    List.countP_mono_left fun b _ hb => by
      simp only [decide_eq_true_eq] at hb ⊢
      exact Nat.le_trans hb hn'
  omega

/-- A character inside a gap of a table is not in the set. -/
theorem within_of_gap {bs : List Nat} {k lo hi : Nat} {c : Char}
    (hlo : bs.countP (· ≤ lo) = 2 * k) (hhi : bs.countP (· ≤ hi) = 2 * k)
    (hc : lo ≤ c.toNat) (hc' : c.toNat ≤ hi) : within bs c = false := by
  unfold within
  rw [countP_le_eq_of_between hlo hhi hc hc', Nat.mul_mod_right]
  rfl

/-- The blanks beyond the first 128 code points lie in four gaps. -/
theorem gap_of_isBlank {c : Char} (h : isBlank c = true) (large : 128 ≤ c.toNat) :
    (128 ≤ c.toNat ∧ c.toNat ≤ 0xa0) ∨ (0x1680 ≤ c.toNat ∧ c.toNat ≤ 0x1680) ∨
      (0x2000 ≤ c.toNat ∧ c.toNat ≤ 0x205f) ∨ (0x3000 ≤ c.toNat ∧ c.toNat ≤ 0x3000) := by
  simp only [isBlank, Bool.or_eq_true, Bool.and_eq_true, decide_eq_true_eq] at h
  omega

/-- A blank is no letter. -/
theorem isLetter_of_isBlank {c : Char} (h : isBlank c = true) : isLetter c = false := by
  unfold isLetter
  split
  case isTrue =>
    have upper : c.isUpper = false := (Bool.decide_and _ _).trans
      (not_between_of_isBlank (d := 'A') (e := 'Z') h (by decide) (by decide))
    have lower : c.isLower = false :=
      not_between_of_isBlank (d := 'a') (e := 'z') h (by decide) (by decide)
    exact Bool.or_eq_false_iff.mpr ⟨upper, lower⟩
  case isFalse large =>
    rcases gap_of_isBlank h (Nat.le_of_not_lt large) with ⟨lo, hi⟩ | ⟨lo, hi⟩ | ⟨lo, hi⟩ | ⟨lo, hi⟩
    · exact within_of_gap (k := 0) (by decide +kernel) (by decide +kernel) lo hi
    · exact within_of_gap (k := 191) (by decide +kernel) (by decide +kernel) lo hi
    · exact within_of_gap (k := 250) (by decide +kernel) (by decide +kernel) lo hi
    · exact within_of_gap (k := 285) (by decide +kernel) (by decide +kernel) lo hi

/-- A blank has no numeric value. -/
theorem isNumeric_of_isBlank {c : Char} (h : isBlank c = true) : isNumeric c = false := by
  unfold isNumeric
  split
  case isTrue => exact isDigit_of_isBlank h
  case isFalse large =>
    rcases gap_of_isBlank h (Nat.le_of_not_lt large) with ⟨lo, hi⟩ | ⟨lo, hi⟩ | ⟨lo, hi⟩ | ⟨lo, hi⟩
    · exact within_of_gap (k := 0) (by decide +kernel) (by decide +kernel) lo hi
    · exact within_of_gap (k := 26) (by decide +kernel) (by decide +kernel) lo hi
    · exact within_of_gap (k := 38) (by decide +kernel) (by decide +kernel) lo hi
    · exact within_of_gap (k := 47) (by decide +kernel) (by decide +kernel) lo hi

end Text

/-- A blank does not continue a name. -/
theorem Token.continuesName_of_isBlank {c : Char} (h : Text.isBlank c = true) :
    Token.continuesName c = false := by
  have underscore : c ≠ '_' := Text.ne_of_isBlank h (by decide)
  simp [Token.continuesName, underscore, Text.isLetter_of_isBlank h, Text.isNumeric_of_isBlank h]

/-- A blank is no digit of any marked base. -/
theorem Number.isDigitIn_of_isBlank {c : Char} (marker : Char) (h : Text.isBlank c = true) :
    Number.isDigitIn marker c = false := by
  unfold Number.isDigitIn
  split
  · rw [Text.isDigit_of_isBlank h, Text.not_between_of_isBlank (d := 'a') h (by decide) (by decide),
      Text.not_between_of_isBlank (d := 'A') h (by decide) (by decide)]
    rfl
  · exact Text.not_between_of_isBlank h (by decide) (by decide)
  · simp [Text.ne_of_isBlank h (show Text.isBlank '0' = false by decide),
      Text.ne_of_isBlank h (show Text.isBlank '1' = false by decide)]
  · exact Text.isDigit_of_isBlank h
  · rfl

end Reckoner
