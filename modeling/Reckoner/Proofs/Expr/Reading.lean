import Reckoner.Proofs.Expr.Steps

/-!
# Reading a spelled tree

Parsing undoes spelling.  The words of a normal tree, read where an operand is due, lead to the state in
which the operand at the tree's right end is complete and the operators of its right edge wait
(`read_spelling`).  The tree itself appears only when the next token or the end of the source folds
that edge.  The statement is about any operators and parentheses that already wait, provided that the
innermost operator admits the tree as its operand and the tree does not nest too deeply for the room
that is left.
-/

namespace Reckoner

namespace ParseState

variable {limit : Nat}

/-- A row of signs is read as a relative reference. -/
theorem referenceOf_signs {k : Nat} (h : 1 ≤ k) :
    referenceOf (String.ofList (List.replicate k '@')) = .ok (.reference .relative k) := by
  obtain ⟨k, rfl⟩ : ∃ j, k = j + 1 := ⟨k - 1, by omega⟩
  have begins : Number.beginsWithDigit (List.replicate k '@') = false := by
    cases k <;> rfl
  have length : (String.ofList (List.replicate (k + 1) '@')).length = k + 1 := by
    rw [String.length_ofList, List.length_replicate]
  rw [referenceOf, length, String.toList_ofList, List.replicate_succ, List.drop_succ_cons,
    List.drop_zero, if_neg (by rw [begins]; exact Bool.false_ne_true)]

/-- A sign before the digits of an index is read as an absolute reference. -/
theorem referenceOf_index {n : Nat} (h : n.repr.length ≤ Numeral.digitLimit) :
    referenceOf ("@" ++ n.repr) = .ok (.reference .absolute n) := by
  have begins : Number.beginsWithDigit (Nat.toDigits 10 n) = true := by
    cases hd : Nat.toDigits 10 n with
    | nil => exact absurd hd Nat.toDigits_ne_nil
    | cons c cs => exact Numeral.isDigit_of_mem_toDigits (n := n) (hd ▸ List.mem_cons_self)
  rw [← String.length_toList, Nat.toList_repr] at h
  simp [referenceOf, begins, Numeral.readDecimal_toDigits h]

/-- A word is read and then the words after it. -/
theorem foldlM_advance_cons {s s' s'' : ParseState} {t : Token} {w : Token.Word}
    {tokens : List Token} (word : t.word = w) (first : Reads s w s')
    (shallow : s'.depth ≤ limit) (later : tokens.foldlM (advance limit) s' = .ok s'') :
    (t :: tokens).foldlM (advance limit) s = .ok s'' := by
  have taken : s.advance limit t = .ok s' := advance_eq_ok_iff.mpr ⟨word ▸ first, shallow⟩
  rw [List.foldlM_cons, taken]
  exact later

/-- Words are read and then the words after them. -/
theorem foldlM_advance_append {s s' s'' : ParseState} {first later : List Token}
    (hfirst : first.foldlM (advance limit) s = .ok s')
    (hlater : later.foldlM (advance limit) s' = .ok s'') :
    (first ++ later).foldlM (advance limit) s = .ok s'' := by
  rw [List.foldlM_append, hfirst]
  exact hlater

/-- A tree and the parenthesis that closes it are read to what the parenthesis makes of the tree. -/
theorem foldlM_advance_closing {x : Expr} {bracket : Bracket} {ps : List Pending}
    {outer : List (Bracket × List Pending)}
    (inner : ∀ {tokens : List Token}, tokens.map Token.word = x.spelling →
      tokens.foldlM (advance limit) (.operand [] ((bracket, ps) :: outer)) =
        .ok (.complete x.edge.1 (x.edge.2 ++ []) ((bracket, ps) :: outer)))
    (shallow : ps.length + outside outer ≤ limit) {tokens : List Token}
    (words : tokens.map Token.word = x.spelling ++ [(.closing, ")")]) :
    tokens.foldlM (advance limit) (.operand [] ((bracket, ps) :: outer)) =
      .ok (.complete (bracket.close x) ps outer) := by
  obtain ⟨first, rest, rfl, wordsx, words⟩ := List.map_eq_append_iff.mp words
  obtain ⟨closing, rfl, hclosing⟩ := List.map_eq_singleton_iff.mp words
  have folded : Pending.foldAll x.edge.1 (x.edge.2 ++ []) = x := by
    rw [Pending.foldAll_append, Expr.foldAll_edge, Pending.foldAll_nil]
  exact foldlM_advance_append (inner wordsx) (foldlM_advance_cons hclosing (.closing ")" folded)
    (by simpa only [depth_complete] using shallow) rfl)

/-- The words of a tree are read from where its operand is due to where only the operators of its right
edge wait. -/
theorem foldlM_advance_spelling {t : Expr} (ladder : t.Laddered) (leaves : t.WellSpelled)
    (ps : List Pending) (outer : List (Bracket × List Pending))
    (admits : ∀ op, t.bareInfix? = some op → Pending.Admits ps op)
    (shallow : ps.length + outside outer + t.nesting ≤ limit) {tokens : List Token}
    (words : tokens.map Token.word = t.spelling) :
    tokens.foldlM (advance limit) (.operand ps outer) =
      .ok (.complete t.edge.1 (t.edge.2 ++ ps) outer) := by
  -- Each case splits the words as the tree is spelled; what waits is generalised, because an operand is
  -- read with its operator waiting, and the inside of a parenthesis with nothing waiting.
  induction t generalizing ps outer tokens with
  | literal text base =>
    obtain ⟨t, rfl, ht⟩ := List.map_eq_singleton_iff.mp words
    rw [show base = _ from leaves.2]
    exact foldlM_advance_cons ht (.number text) (by simpa [Expr.nesting] using shallow) rfl
  | constant c =>
    obtain ⟨t, rfl, ht⟩ := List.map_eq_singleton_iff.mp words
    exact foldlM_advance_cons ht (.constant c.ofName?_name)
      (by simpa [Expr.nesting] using shallow) rfl
  | reference kind n =>
    cases kind with
    | relative =>
      obtain ⟨t, rfl, ht⟩ := List.map_eq_singleton_iff.mp words
      have positive : 1 ≤ n := leaves
      obtain ⟨k, rfl⟩ : ∃ k : Nat, n = k := ⟨n.toNat, by omega⟩
      exact foldlM_advance_cons ht (.history (referenceOf_signs (by omega)))
        (by simpa [Expr.nesting] using shallow) rfl
    | absolute =>
      obtain ⟨t, rfl, ht⟩ := List.map_eq_singleton_iff.mp words
      obtain ⟨k, rfl⟩ : ∃ k : Nat, n = k := ⟨n.toNat, (Int.toNat_of_nonneg leaves.1).symm⟩
      exact foldlM_advance_cons ht (.history (referenceOf_index leaves.2))
        (by simpa [Expr.nesting] using shallow) rfl
  | blocked => exact absurd leaves id
  | prefixed op x ih =>
    obtain ⟨t, rest, rfl, ht, words⟩ := List.map_eq_cons_iff.mp words
    simp only [Expr.nesting] at shallow
    have operand := ih ladder.2 leaves (.prefixed op :: ps) outer
      (fun inner bare => by rw [ladder.1] at bare; cases bare)
      (by simp only [List.length_cons]; omega) words
    rw [Expr.edge, List.append_assoc]
    exact foldlM_advance_cons ht (.sign (PrefixOp.ofSpelling?_eq_some_iff.mpr rfl))
      (by simp only [depth_operand, List.length_cons]; omega) operand
  | infixed l op r ihl ihr =>
    obtain ⟨first, rest, rfl, wordsl, words⟩ := List.map_eq_append_iff.mp words
    obtain ⟨t, last, rfl, ht, wordsr⟩ := List.map_eq_cons_iff.mp words
    obtain ⟨left, right, ladderl, ladderr⟩ := ladder
    have own : Pending.Admits ps op := admits op rfl
    simp only [Expr.nesting] at shallow
    have hl := ihl ladderl leaves.1 ps outer
      (fun inner bare => own.of_admitsLeft (left inner bare)) (by omega) wordsl
    have hr := ihr ladderr leaves.2 (.infixed l op :: ps) outer right
      (by simp only [List.length_cons]; omega) wordsr
    -- The right edge of the left operand yields to the operator, and what waited before it stays.
    have folded : Pending.foldBefore op l.edge.1 (l.edge.2 ++ ps) = (l, ps) := by
      rw [Pending.foldBefore_append (Expr.yields_of_mem_edge ladderl left), Expr.foldAll_edge,
        own.foldBefore_eq]
    rw [Expr.edge, List.append_assoc]
    refine foldlM_advance_append hl (foldlM_advance_cons ht
      (.operator (InfixOp.ofSpelling?_eq_some_iff.mpr rfl) folded) ?_ hr)
    simp only [depth_operand, List.length_cons]
    omega
  | call f x ih =>
    obtain ⟨name, rest, rfl, hname, words⟩ := List.map_eq_cons_iff.mp words
    obtain ⟨opening, rest, rfl, hopening, words⟩ := List.map_eq_cons_iff.mp words
    simp only [Expr.nesting] at shallow
    refine foldlM_advance_cons hname
      (.function (Constant.ofName?_function_name f) (Function.ofName?_eq_some_iff.mpr rfl))
      (by simp only [depth_argument]; omega) ?_
    refine foldlM_advance_cons hopening (.call "(")
      (by simp only [depth_operand, List.length_nil, outside_cons]; omega) ?_
    exact foldlM_advance_closing (ih ladder leaves [] ((.call f, ps) :: outer)
      (fun _ _ => trivial) (by simp only [List.length_nil, outside_cons]; omega)) (by omega) words
  | group x ih =>
    obtain ⟨opening, rest, rfl, hopening, words⟩ := List.map_eq_cons_iff.mp words
    simp only [Expr.nesting] at shallow
    refine foldlM_advance_cons hopening (.group "(")
      (by simp only [depth_operand, List.length_nil, outside_cons]; omega) ?_
    exact foldlM_advance_closing (ih ladder leaves [] ((.group, ps) :: outer)
      (fun _ _ => trivial) (by simp only [List.length_nil, outside_cons]; omega)) (by omega) words

end ParseState

namespace Expr

variable {limit : Nat}

/-- A source whose words are those of a normal tree is parsed to that tree, however it is spaced. -/
theorem parse_of_scans {t : Expr} (normal : t.Normal) (shallow : t.nesting ≤ limit)
    {source : String} {tokens : List Token} (scanned : Token.Scans 0 source.toList tokens)
    (words : tokens.map Token.word = t.spelling) : parse limit source = .ok t := by
  have run := ParseState.foldlM_advance_spelling normal.laddered normal.wellSpelled [] []
    (fun _ _ => trivial) (by simpa using shallow) words
  rw [List.append_nil] at run
  exact parse_eq_ok_iff.mpr ⟨tokens, _, _, scanned, run, foldAll_edge t⟩

/-- Parsing undoes spelling on every normal tree that does not nest too deeply. -/
theorem parse_spelled {t : Expr} (normal : t.Normal)
    (shallow : t.nesting ≤ limit) : parse limit t.spelled = .ok t := by
  obtain ⟨tokens, scanned, words⟩ :=
    Token.exists_scans_spaced (isWord_of_mem_spelling normal.wellSpelled) 0
  exact parse_of_scans normal shallow scanned words

/-- Powers group to the right, a sign binds more tightly than a power, and a product less. -/
theorem parse_spelled_powers :
    let t : Expr := .infixed
      (.infixed (.literal "1" .decimal) .pow
        (.infixed (.prefixed .negate (.literal ".5e-3" .decimal)) .pow
          (.group (.infixed (.infixed (.constant .pi) .sub (.reference .relative 2)) .add
            (.reference .absolute 7)))))
      .mul (.call .sin (.literal "0x_F" .hex))
    t.spelled = "1 ** - .5e-3 ** ( pi - @@ + @7 ) * sin ( 0x_F )" ∧ parse 8 t.spelled = .ok t :=
  ⟨by decide, parse_spelled (by decide) (by decide)⟩

end Expr

end Reckoner
