import Reckoner.Proofs.Expr.Steps

/-!
# No word is lost

A parse loses no word and adds none: the words of its tree are the words of the source, in their order
(`words_of_parse`).  They are the same but for two spellings that the tree does not keep, the Greek letter
for `pi` and the zeros before an index, which `plain` takes away.

To follow this through a parse, a state of the parser is spelled too: its waiting operators with their
left operands and its open parentheses, the innermost last.  Folding leaves that spelling as it is
(`spelling_foldAll`, `spelling_foldBefore`), and each step adds its word to it (`Reads.spelling_eq`).
-/

namespace Reckoner

open Token (Word IsWord)

/-! ## Spelled states -/

/-- The word as the tree spells it: `pi` for the Greek letter, and an index without leading zeros. -/
def Token.Word.plain : Word → Word
  | (.name, text) => (.name, if text = "π" then "pi" else text)
  | (.history, text) =>
    (.history, String.ofList ('@' :: Numeral.trimZeros (text.toList.drop 1)))
  | w => w

namespace Pending

/-- The words of waiting operators with their left operands, the innermost operator last. -/
def spelling : List Pending → List Word
  | [] => []
  | .prefixed op :: ps => spelling ps ++ [(.operator, op.spelling)]
  | .infixed l op :: ps => spelling ps ++ (l.spelling ++ [(.operator, op.spelling)])

/-- A waiting operator that takes its operand moves no word. -/
theorem spelling_apply (p : Pending) (x : Expr) (ps : List Pending) :
    spelling ps ++ (p.apply x).spelling = spelling (p :: ps) ++ x.spelling := by
  cases p <;> simp [apply, spelling, Expr.spelling]

theorem spelling_foldAll (x : Expr) (ps : List Pending) :
    (foldAll x ps).spelling = spelling ps ++ x.spelling :=
  foldAll_induction (motive := fun y qs => spelling qs ++ y.spelling = spelling ps ++ x.spelling)
    (fun kept => (spelling_apply ..).trans kept) rfl

theorem spelling_foldBefore {next : InfixOp} {x l : Expr} {ps rest : List Pending}
    (folded : foldBefore next x ps = (l, rest)) :
    spelling rest ++ l.spelling = spelling ps ++ x.spelling :=
  (foldBefore_induction
    (motive := fun y qs => spelling qs ++ y.spelling = spelling ps ++ x.spelling)
    (fun _ kept => (spelling_apply ..).trans kept) folded rfl).1

end Pending

/-- The words that open a parenthesis. -/
def Bracket.spelling : Bracket → List Word
  | group => [(.opening, "(")]
  | call f => [(.name, f.name), (.opening, "(")]

theorem Bracket.spelling_close (bracket : Bracket) (x : Expr) :
    (bracket.close x).spelling = bracket.spelling ++ (x.spelling ++ [(.closing, ")")]) := by
  cases bracket <;> rfl

namespace ParseState

/-- The words outside the innermost parenthesis, with those that open it. -/
def spellingAround : List (Bracket × List Pending) → List Word
  | [] => []
  | (bracket, ps) :: outer => spellingAround outer ++ (Pending.spelling ps ++ bracket.spelling)

/-- The words of what has been read. -/
def spelling : ParseState → List Word
  | .operand ps outer => spellingAround outer ++ Pending.spelling ps
  | .argument f ps outer => spellingAround outer ++ (Pending.spelling ps ++ [(.name, f.name)])
  | .complete x ps outer => spellingAround outer ++ (Pending.spelling ps ++ x.spelling)

/-- A word that is read as a reference is a row of signs, or a sign before an index. -/
theorem referenceOf_eq_ok {text : String} {x : Expr} (word : IsWord .history text)
    (read : referenceOf text = .ok x) :
    (∃ k : Nat, 1 ≤ k ∧ x = .reference .relative k ∧
      Word.plain (.history, text) = (.history, String.ofList (List.replicate k '@'))) ∨
    ∃ n : Nat, n.repr.length ≤ Numeral.digitLimit ∧ x = .reference .absolute n ∧
      Word.plain (.history, text) = (.history, "@" ++ n.repr) := by
  obtain ⟨cs, hcs, shape⟩ := word.eq_reference
  have length : text.length = cs.length + 1 := by
    rw [← String.length_toList, hcs, List.length_cons]
  rw [referenceOf, hcs, List.drop_one, List.tail_cons] at read
  rw [Word.plain, hcs, List.drop_one, List.tail_cons]
  by_cases digit : Number.beginsWithDigit cs = true
  · rw [if_pos digit] at read shape
    have filled : cs ≠ [] := by rintro rfl; exact absurd digit Bool.false_ne_true
    rw [Numeral.readDecimal] at read
    by_cases long : Numeral.digitLimit < cs.length
    · rw [if_pos long] at read
      cases read
    · rw [if_neg long] at read
      have digits := Numeral.toDigits_valueOf shape filled
      have text : "@" ++ (Numeral.valueOf 10 cs).repr =
          String.ofList ('@' :: Numeral.trimZeros cs) := by
        rw [← digits]
        apply String.toList_injective
        simp
      refine Or.inr ⟨Numeral.valueOf 10 cs, ?_, (Except.ok.inj read).symm, by rw [text]⟩
      rw [← String.length_toList, Nat.toList_repr, digits]
      exact (Numeral.length_trimZeros_le cs).trans (Nat.not_lt.mp long)
  · rw [if_neg digit] at read shape
    have signs : Numeral.trimZeros cs = cs := by
      rw [shape]
      cases cs.length with
      | zero => rfl
      | succ n => exact Numeral.trimZeros_of_ne (by decide) _
    refine Or.inl ⟨cs.length + 1, Nat.succ_pos _, ?_, ?_⟩
    · rw [← length]
      exact (Except.ok.inj read).symm
    · rw [signs, List.replicate_succ, ← shape]

/-- The words of a reference are the one it was read from, up to the zeros before an index. -/
theorem spelling_of_referenceOf {text : String} {x : Expr} (word : IsWord .history text)
    (read : referenceOf text = .ok x) : x.spelling = [Word.plain (.history, text)] := by
  rcases referenceOf_eq_ok word read with ⟨k, -, rfl, plain⟩ | ⟨n, -, rfl, plain⟩
  · rw [plain]
    rfl
  · rw [plain]
    rfl

/-- Each step adds its word to what has been read. -/
theorem Reads.spelling_eq {s s' : ParseState} {w : Word} (h : Reads s w s')
    (word : IsWord w.1 w.2) : s'.spelling = s.spelling ++ [w.plain] := by
  cases h with
  | number text => simp [spelling, Expr.spelling, Word.plain]
  | history read =>
    simp [spelling, spelling_of_referenceOf word read]
  | constant named =>
    simp [spelling, Expr.spelling, Word.plain, Constant.name_of_ofName? named]
  | @function text f ps outer other named =>
    have notGreek : text ≠ "π" := by rintro rfl; exact absurd other (by decide)
    simp [spelling, Word.plain, notGreek, Function.ofName?_eq_some_iff.mp named]
  | sign spelled =>
    simp [spelling, Pending.spelling, Word.plain, PrefixOp.ofSpelling?_eq_some_iff.mp spelled]
  | group text =>
    obtain rfl := IsWord.eq_opening word
    simp [spelling, spellingAround, Pending.spelling, Bracket.spelling, Word.plain]
  | call text =>
    obtain rfl := IsWord.eq_opening word
    simp [spelling, spellingAround, Pending.spelling, Bracket.spelling, Word.plain]
  | @operator text op x l ps waiting outer spelled folded =>
    have kept := Pending.spelling_foldBefore folded
    rw [spelling, Pending.spelling, ← List.append_assoc (Pending.spelling _), kept]
    simp [spelling, Word.plain, InfixOp.ofSpelling?_eq_some_iff.mp spelled]
  | closing text folded =>
    obtain rfl := IsWord.eq_closing word
    simp [spelling, spellingAround, Bracket.spelling_close, ← folded, Pending.spelling_foldAll,
      Word.plain]

end ParseState

namespace Expr

/-- The words of the tree are those of the source in their plain spelling. -/
theorem words_of_parse {limit : Nat} {source : String} {t : Expr} (h : parse limit source = .ok t) :
    ∃ tokens, Token.Scans 0 source.toList tokens ∧
      tokens.map (fun token => token.word.plain) = t.spelling := by
  obtain ⟨tokens, y, ps, scanned, run, rfl⟩ := parse_eq_ok_iff.mp h
  refine ⟨tokens, scanned, ?_⟩
  have read := ParseState.run_induction run
    (motive := fun done s => s.spelling = done.map fun token => token.word.plain) rfl
    fun done t s s' ht kept reads _ => by
      rw [reads.spelling_eq (scanned.isWord t ht), kept, List.map_append, List.map_singleton]
  rw [Pending.spelling_foldAll, ← read]
  rfl

end Expr

end Reckoner
