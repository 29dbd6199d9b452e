/-!
# Halves of surrogate pairs

The code points from `0xd800` to `0xdfff` are halves of pairs and no characters. Where a text has to
hold one all the same, a private character stands for it; like a half it is no letter,
no numeral and no blank, and does not show in print.
-/

namespace Reckoner

namespace Text

/-- Is the code point half of a pair? -/
def isHalf (n : Nat) : Bool := 0xd800 ≤ n && n < 0xe000

/-- The code point of the character that stands for the first half. -/
def firstStandIn : Nat := 0xf2800

/-- The character that stands for a half. -/
def standIn (n : Nat) : Char := Char.ofNat (firstStandIn + (n - 0xd800))

/-- The half that a character stands for, if it does. -/
def half? (c : Char) : Option Nat :=
  let n := 0xd800 + (c.toNat - firstStandIn)
  if firstStandIn ≤ c.toNat && isHalf n then some n else none

/-- The character at a code point, or the one that stands for it. -/
def character (n : Nat) : Char := if isHalf n then standIn n else Char.ofNat n

/-- A stand-in tells its half. -/
theorem half?_standIn {n : Nat} (h : isHalf n = true) : half? (standIn n) = some n := by
  have bounds := h
  simp only [isHalf, Bool.and_eq_true, decide_eq_true_eq] at bounds
  have valid : (firstStandIn + (n - 0xd800)).isValidChar :=
    Or.inr ⟨by unfold firstStandIn; omega, by unfold firstStandIn; omega⟩
  have value : (standIn n).toNat = firstStandIn + (n - 0xd800) := by
    unfold standIn Char.ofNat
    rw [dif_pos valid]
    rfl
  have back : 0xd800 + (firstStandIn + (n - 0xd800) - firstStandIn) = n := by omega
  simp only [half?, value, back, h, Nat.le_add_right, decide_true, Bool.and_self, if_true]

end Text

end Reckoner
