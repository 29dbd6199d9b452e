import Mathlib.Data.List.TakeWhile
import Reckoner.Expr.Parse
import Reckoner.Proofs.Expr.Vocabulary
import Reckoner.Proofs.Numeral.Decimal
import Reckoner.Proofs.Token.Word

/-!
# Spelling a tree

A tree is spelled by its words in order: `spelling` lists them, and `spelled` writes them with one
space between any two.  Nothing is added in the spelling; parentheses stand only where the tree has a
node for them.  So a tree can be read back from its words only if each operand may stand bare where it
does, and `Laddered` says just that, in terms of the ladder of infix operators.

`WellSpelled` says of the leaves that their words are the words of such leaves, and `Normal` is both
together.
-/

namespace Reckoner

open Token (Word IsWord)

/-- The base that the marker of a literal names. -/
def Base.named : List Char → Base
  | '0' :: 'b' :: _ => .binary
  | '0' :: 'o' :: _ => .octal
  | '0' :: 'x' :: _ => .hex
  | _ => .decimal

theorem Base.named_marked (b : Base) (run : List Char) : Base.named ('0' :: b.marker :: run) = b := by
  cases b <;> rfl

/-- A text that begins with no other marker names the decimal base. -/
theorem Base.named_of_unmarked {text : List Char}
    (other : ∀ b : Base, b ≠ .decimal → ¬ ['0', b.marker] <+: text) : Base.named text = .decimal := by
  unfold Base.named
  split
  case h_1 rest => exact absurd (List.prefix_append ['0', 'b'] rest) (other .binary (by decide))
  case h_2 rest => exact absurd (List.prefix_append ['0', 'o'] rest) (other .octal (by decide))
  case h_3 rest => exact absurd (List.prefix_append ['0', 'x'] rest) (other .hex (by decide))
  case h_4 => rfl

/-! ## The words of the vocabulary -/

theorem Token.isWord_opening : IsWord .opening "(" := by decide

theorem Token.isWord_closing : IsWord .closing ")" := by decide

theorem PrefixOp.isWord_spelling (op : PrefixOp) : IsWord .operator op.spelling := by
  cases op <;> decide

theorem InfixOp.isWord_spelling (op : InfixOp) : IsWord .operator op.spelling := by
  cases op <;> decide

theorem Function.isWord_name (f : Function) : IsWord .name f.name := by
  cases f <;> decide

theorem Constant.isWord_of_ofName? {text : String} {c : Constant} (named : ofName? text = some c) :
    IsWord .name text := by
  have names : text = "e" ∨ text = "pi" ∨ text = "π" := by
    unfold ofName? at named
    grind
  rcases names with rfl | rfl | rfl <;> decide +kernel

/-! ## Trees -/

namespace Expr

/-- The words of a tree in order. -/
def spelling : Expr → List Word
  | .literal text _ => [(.number, text)]
  | .constant c => [(.name, c.name)]
  | .reference .relative k => [(.history, String.ofList (List.replicate k.toNat '@'))]
  | .reference .absolute n => [(.history, "@" ++ toString n)]
  | .prefixed op x => (.operator, op.spelling) :: x.spelling
  | .infixed l op r => l.spelling ++ (.operator, op.spelling) :: r.spelling
  | .call f x => (.name, f.name) :: (.opening, "(") :: (x.spelling ++ [(.closing, ")")])
  | .group x => (.opening, "(") :: (x.spelling ++ [(.closing, ")")])
  | .blocked _ => []

/-- The words of a tree with one space between any two. -/
def spelled (t : Expr) : String := Token.spaced t.spelling

/-- The operator of a tree that is a bare infix operation. -/
def bareInfix? : Expr → Option InfixOp
  | .infixed _ op _ => some op
  | _ => none

/-- Every operand of the tree may stand where it does without parentheses. -/
def Laddered : Expr → Prop
  | .prefixed _ x => x.bareInfix? = none ∧ x.Laddered
  | .infixed l op r =>
    (∀ inner, l.bareInfix? = some inner → op.AdmitsLeft inner) ∧
      (∀ inner, r.bareInfix? = some inner → op.AdmitsRight inner) ∧ l.Laddered ∧ r.Laddered
  | .call _ x | .group x => x.Laddered
  | .literal .. | .constant _ | .reference .. | .blocked _ => True

/-- Every leaf of the tree has words: a literal is one number token in the base that it names,
references count from one, or from zero with an index that is not too long to be read. -/
def WellSpelled : Expr → Prop
  | .literal text base => IsWord .number text ∧ base = Base.named text.toList
  | .constant _ => True
  | .reference .relative k => 1 ≤ k
  | .reference .absolute n => 0 ≤ n ∧ (toString n).length ≤ Numeral.digitLimit
  | .prefixed _ x | .call _ x | .group x => x.WellSpelled
  | .infixed l _ r => l.WellSpelled ∧ r.WellSpelled
  | .blocked _ => False

/-- A tree that its spelling determines. -/
structure Normal (t : Expr) : Prop where
  laddered : t.Laddered
  wellSpelled : t.WellSpelled

instance decidableLaddered : (t : Expr) → Decidable t.Laddered
  | .prefixed _ x =>
    have := decidableLaddered x
    inferInstanceAs (Decidable (_ ∧ _))
  | .infixed l op r =>
    have := decidableLaddered l
    have := decidableLaddered r
    inferInstanceAs (Decidable
      ((∀ inner ∈ l.bareInfix?, op.AdmitsLeft inner) ∧
        (∀ inner ∈ r.bareInfix?, op.AdmitsRight inner) ∧ l.Laddered ∧ r.Laddered))
  | .call _ x | .group x => decidableLaddered x
  | .literal .. | .constant _ | .reference .. | .blocked _ => inferInstanceAs (Decidable True)

instance decidableWellSpelled : (t : Expr) → Decidable t.WellSpelled
  | .literal .. => inferInstanceAs (Decidable (_ ∧ _))
  | .reference .relative k => inferInstanceAs (Decidable (1 ≤ k))
  | .reference .absolute n =>
    inferInstanceAs (Decidable (0 ≤ n ∧ (toString n).length ≤ Numeral.digitLimit))
  | .prefixed _ x | .call _ x | .group x => decidableWellSpelled x
  | .infixed l _ r =>
    have := decidableWellSpelled l
    have := decidableWellSpelled r
    inferInstanceAs (Decidable (_ ∧ _))
  | .constant _ => inferInstanceAs (Decidable True)
  | .blocked _ => inferInstanceAs (Decidable False)

instance (t : Expr) : Decidable t.Normal :=
  decidable_of_iff (t.Laddered ∧ t.WellSpelled) ⟨fun h => ⟨h.1, h.2⟩, fun h => ⟨h.1, h.2⟩⟩

/-- A row of signs is a history token. -/
theorem isWord_signs {k : Nat} (h : 1 ≤ k) :
    IsWord .history (String.ofList (List.replicate k '@')) := by
  obtain ⟨k, rfl⟩ : ∃ j, k = j + 1 := ⟨k - 1, by omega⟩
  refine Token.isWord_iff.mpr ⟨'@', List.replicate k '@', String.toList_ofList, by decide, ?_⟩
  have begins : Number.beginsWithDigit (List.replicate k '@') = false := by
    cases k <;> rfl
  have length : Token.referenceLength (List.replicate k '@') = k := by
    simp [Token.referenceLength, begins]
  exact congrArg (fun n => some (TokenKind.history, n)) (by rw [length, List.length_replicate])

/-- A sign before the digits of an index is a history token. -/
theorem isWord_index (n : Nat) : IsWord .history ("@" ++ n.repr) := by
  refine Token.isWord_iff.mpr ⟨'@', Nat.toDigits 10 n, by simp, by decide, ?_⟩
  have digits : ∀ c ∈ Nat.toDigits 10 n, Text.isDigit c = true :=
    fun _ => Numeral.isDigit_of_mem_toDigits
  have begins : Number.beginsWithDigit (Nat.toDigits 10 n) = true := by
    cases hd : Nat.toDigits 10 n with
    | nil => exact absurd hd Nat.toDigits_ne_nil
    | cons c cs => exact digits c (hd ▸ List.mem_cons_self)
  have length : Token.referenceLength (Nat.toDigits 10 n) = (Nat.toDigits 10 n).length := by
    rw [Token.referenceLength, if_pos begins, List.takeWhile_eq_self_iff.mpr digits]
  exact congrArg (fun n => some (TokenKind.history, n)) length

/-- The words of a well spelled tree are words of the language. -/
theorem isWord_of_mem_spelling {t : Expr} (h : t.WellSpelled) :
    ∀ w ∈ t.spelling, IsWord w.1 w.2 := by
  have opening := Token.isWord_opening
  have closing := Token.isWord_closing
  induction t with
  | literal text base => simpa [spelling] using h.1
  | constant c =>
    intro w hw
    obtain rfl := List.mem_singleton.mp hw
    exact Constant.isWord_of_ofName? c.ofName?_name
  | reference kind n =>
    cases kind with
    | relative =>
      have positive : 1 ≤ n := h
      simpa [spelling] using isWord_signs (k := n.toNat) (by omega)
    | absolute =>
      obtain ⟨k, rfl⟩ : ∃ k : Nat, n = k := ⟨n.toNat, (Int.toNat_of_nonneg h.1).symm⟩
      intro w hw
      obtain rfl := List.mem_singleton.mp hw
      exact isWord_index k
  | blocked => exact absurd h id
  | prefixed op x ih =>
    have own := op.isWord_spelling
    intro w hw
    rcases List.mem_cons.mp hw with rfl | hw
    · exact own
    · exact ih h w hw
  | infixed l op r ihl ihr =>
    have own := op.isWord_spelling
    intro w hw
    simp only [spelling, List.mem_append, List.mem_cons] at hw
    rcases hw with hw | rfl | hw
    · exact ihl h.1 w hw
    · exact own
    · exact ihr h.2 w hw
  | call f x ih =>
    have own := f.isWord_name
    intro w hw
    simp only [spelling, List.mem_append, List.mem_cons, List.not_mem_nil, or_false] at hw
    rcases hw with rfl | rfl | hw | rfl
    · exact own
    · exact opening
    · exact ih h w hw
    · exact closing
  | group x ih =>
    intro w hw
    simp only [spelling, List.mem_append, List.mem_cons, List.not_mem_nil, or_false] at hw
    rcases hw with rfl | hw | rfl
    · exact opening
    · exact ih h w hw
    · exact closing

/-- How deep the reading of the tree goes, at most. -/
def nesting : Expr → Nat
  | .literal .. | .constant _ | .reference .. | .blocked _ => 0
  | .prefixed _ x => x.nesting + 1
  | .call _ x | .group x => x.nesting + Bracket.depth
  | .infixed l _ r => max l.nesting (r.nesting + 1)

end Expr

end Reckoner
