/-!
# Blanks

White space separates tokens and may surround a format annotation: the characters that Unicode counts
as white space and the four information separators. Around a freely written number the separators do
not count.
-/

namespace Reckoner

namespace Text

def isBlank (c : Char) : Bool :=
  let n := c.toNat
  (9 ≤ n && n ≤ 13) || (28 ≤ n && n ≤ 32) || n = 0x85 || n = 0xa0 || n = 0x1680 ||
  (0x2000 ≤ n && n ≤ 0x200a) || n = 0x2028 || n = 0x2029 || n = 0x202f || n = 0x205f || n = 0x3000

/-- A blank that is no information separator. -/
def isSpace (c : Char) : Bool := isBlank c && !(28 ≤ c.toNat && c.toNat ≤ 31)

/-- The text without the characters of a class at its two ends. -/
def stripOf (member : Char → Bool) (cs : List Char) : List Char :=
  ((cs.dropWhile member).reverse.dropWhile member).reverse

/-- The text without the blanks at its two ends. -/
def strip (cs : List Char) : List Char := stripOf isBlank cs

theorem isBlank_of_isWhitespace {c : Char} (h : c.isWhitespace = true) : isBlank c = true := by
  simp only [Char.isWhitespace, Bool.or_eq_true, decide_eq_true_eq] at h
  rcases h with ((h | h) | h) | h <;> subst h <;> decide

end Text

end Reckoner
