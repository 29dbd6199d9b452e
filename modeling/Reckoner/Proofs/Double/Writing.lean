import Mathlib.Tactic.Common
import Reckoner.Double.Layout
import Reckoner.Proofs.Numeral.Real

/-!
# Doubles written out

A finite double is written as a sign and a row of digits, perhaps with a point inside it (`write_plain`),
since its digits are those of a natural number and are laid out around the point whatever its place is
(`positionalText_eq`).  There is always a digit before the point.
-/

namespace Reckoner

namespace Double

open Numeral (IsPoint)

theorem isDigit_of_mem_zeros {n : Nat} {c : Char} (h : c ∈ List.replicate n '0') :
    Text.isDigit c = true := by
  rw [List.eq_of_mem_replicate h]
  decide

/-- Digits laid out around a point are digits, at least one, and perhaps a point and digits. -/
theorem positionalText_eq {digits : List Char} (ne : digits ≠ [])
    (decimal : ∀ c ∈ digits, Text.isDigit c = true) (point : Int) :
    ∃ whole tail, (positionalText "" digits point).toList = whole ++ tail ∧ whole ≠ [] ∧
      (∀ c ∈ whole, Text.isDigit c = true) ∧ IsPoint Text.isDigit tail := by
  unfold positionalText
  split
  case isTrue =>
    refine ⟨['0'], '.' :: (List.replicate (-point).toNat '0' ++ digits), ?_, nofun,
      List.forall_mem_singleton.mpr (by decide), .present ?_⟩
    · simp [zeros]
    · exact List.forall_mem_append.mpr ⟨fun c => isDigit_of_mem_zeros, decimal⟩
  case isFalse positive =>
    split
    case isTrue =>
      refine ⟨digits ++ List.replicate (point.toNat - digits.length) '0', [], ?_, ?_, ?_, .absent⟩
      · simp [zeros]
      · exact fun none => ne (List.append_eq_nil_iff.mp none).1
      · exact List.forall_mem_append.mpr ⟨decimal, fun c => isDigit_of_mem_zeros⟩
    case isFalse =>
      refine ⟨digits.take point.toNat, '.' :: digits.drop point.toNat, ?_, ?_, ?_, .present ?_⟩
      · simp
      · rw [Ne, List.take_eq_nil_iff, not_or]
        exact ⟨by omega, ne⟩
      · exact fun c hc => decimal c (List.mem_of_mem_take hc)
      · exact fun c hc => decimal c (List.mem_of_mem_drop hc)

/-- A finite double is a sign, digits and perhaps a point and digits. -/
theorem write_plain {x : Double} (finite : x.isFinite = true) :
    ∃ whole tail, (x.write .plain).toList = (if x.isNegative then ['-'] else []) ++ (whole ++ tail) ∧
      whole ≠ [] ∧ (∀ c ∈ whole, Text.isDigit c = true) ∧ IsPoint Text.isDigit tail := by
  cases x with
  | nan => cases finite
  | ranked negative rank bounded =>
    have small : rank ≠ infinityRank := Nat.ne_of_lt (of_decide_eq_true finite)
    -- Only the digits and the place of the point differ between zero and the other ranks.
    have positional : ∃ digits point, digits ≠ [] ∧ (∀ c ∈ digits, Text.isDigit c = true) ∧
        magnitudeText .plain rank = positionalText "" digits point := by
      by_cases zero : rank = 0
      · refine ⟨['0'], 1, nofun, List.forall_mem_singleton.mpr (by decide), ?_⟩
        rw [magnitudeText, if_neg small, if_pos zero]
        rfl
      · let digits := Nat.toDigits 10 (shortest rank).coefficient
        refine ⟨digits, digits.length + (shortest rank).exponent, Nat.toDigits_ne_nil,
          fun c => Numeral.isDigit_of_mem_toDigits, ?_⟩
        rw [magnitudeText, if_neg small, if_neg zero]
        rfl
    obtain ⟨digits, point, ne, decimal, same⟩ := positional
    obtain ⟨whole, tail, text, parts⟩ := positionalText_eq ne decimal point
    refine ⟨whole, tail, ?_, parts⟩
    rw [← text, ← same, write, String.toList_append]
    cases negative <;> rfl

end Double

end Reckoner
