import Reckoner.Proofs.Expr.Faults

/-!
# Blanks between words

What a source means does not hang on the blanks between its words, beyond that they keep the words apart.
When the words of a source are written anew with other blanks before, between and after them, a scan
gives the same words again, and a parse gives the same tree or stops at the same word for the same reason
(`parse_respaced`).

Two facts carry this.  The words of a source read as themselves when they stand alone, and a blank ends
each of them, so they are scanned back from wherever they stand.  And the parser looks at nothing but the
words: the place of a token enters only the span of a fault.
-/

namespace Reckoner

open Token (IsWord Separated respaced)

/-- What came of two sources, whose tokens are given, is the same: one tree, or one fault but for its
span, which is that of the same token in each of them. -/
inductive SameOutcome (tokens tokens' : List Token) :
    Except Fault Expr → Except Fault Expr → Prop where
  | ok (x : Expr) : SameOutcome tokens tokens' (.ok x) (.ok x)
  | error {t t' : Token} (i : Nat) (fault : Fault) (ht : tokens[i]? = some t)
      (ht' : tokens'[i]? = some t') :
      SameOutcome tokens tokens' (.error (fault.placedAt t)) (.error (fault.placedAt t'))

/-- A fault that has the span of a token here and is moved to the token of the same index there. -/
theorem SameOutcome.of_placed {tokens tokens' : List Token} {t t' : Token} {fault : Fault} (i : Nat)
    (own : fault.placedAt t = fault) (ht : tokens[i]? = some t) (ht' : tokens'[i]? = some t') :
    SameOutcome tokens tokens' (.error fault) (.error (fault.placedAt t')) := by
  have same := SameOutcome.error i fault ht ht'
  rwa [own] at same

namespace Expr

variable {limit : Nat}

/-- Tokens with the same words are parsed alike. -/
theorem ofTokens_same_outcome {tokens tokens' : List Token} {last last' : Token}
    (words : tokens'.map Token.word = tokens.map Token.word) (ends : last.word = last'.word) :
    SameOutcome (tokens ++ [last]) (tokens' ++ [last']) (ofTokens limit tokens last)
      (ofTokens limit tokens' last') := by
  have length : tokens'.length = tokens.length := by
    simpa only [List.length_map] using congrArg List.length words
  unfold ofTokens
  cases run : tokens.foldlM (ParseState.advance limit) ParseState.start with
  | ok s =>
    rw [ParseState.foldlM_congr words run]
    change SameOutcome _ _ (s.finish last) (s.finish last')
    have moved := ParseState.finish_placedAt ends s
    cases finished : s.finish last with
    | ok x =>
      rw [finished] at moved
      rw [moved]
      exact .ok x
    | error fault =>
      have own := ParseState.placedAt_of_eq_mapError (ParseState.finish_placedAt rfl s) finished
      rw [finished] at moved
      rw [moved]
      refine .of_placed tokens.length own ?_ ?_
      · rw [List.getElem?_concat_length]
      · rw [← length, List.getElem?_concat_length]
  | error fault =>
    obtain ⟨before, t, after, s, rfl, taken, refused⟩ := ParseState.foldlM_eq_error_iff.mp run
    -- The other tokens are split where these are.
    rw [List.map_append] at words
    obtain ⟨before', rest, rfl, first, later⟩ := List.map_eq_append_iff.mp words
    obtain ⟨t', after', rfl, word, -⟩ := List.map_eq_cons_iff.mp later
    have length' : before'.length = before.length := by
      simpa only [List.length_map] using congrArg List.length first
    have own := ParseState.placedAt_of_eq_mapError (ParseState.advance_placedAt rfl s) refused
    have moved : s.advance limit t' = _ := ParseState.advance_placedAt word.symm s
    rw [refused] at moved
    have run' := ParseState.foldlM_eq_error_iff.mpr
      ⟨before', t', after', s, rfl, ParseState.foldlM_congr first taken, moved⟩
    rw [run']
    refine .of_placed before.length own ?_ ?_
    · simp
    · rw [← length']
      simp

/-- The words of a source with other blanks around them are scanned to the same words and parsed to the same
tree, or refused at the same word for the same reason. -/
theorem parse_respaced {source : String} {tokens : List Token}
    (scanned : Token.scan source.toList = .ok (tokens ++ [Token.finishAt source.length]))
    {first : String} {gaps : List String} (separated : Separated tokens.length first gaps) :
    let source' := respaced first (tokens.map Token.text) gaps
    ∃ tokens', Token.scan source'.toList = .ok (tokens' ++ [Token.finishAt source'.length]) ∧
      tokens'.map Token.word = tokens.map Token.word ∧
      SameOutcome (tokens ++ [Token.finishAt source.length])
        (tokens' ++ [Token.finishAt source'.length]) (parse limit source) (parse limit source') := by
  intro source'
  obtain ⟨words, all, steps⟩ := Token.scan_eq_ok_iff.mp scanned
  obtain rfl : tokens = words := (List.append_inj' all rfl).1
  have texts : tokens.map Token.text = (tokens.map Token.word).map Prod.snd := by
    rw [List.map_map]
    rfl
  have real : ∀ w ∈ tokens.map Token.word, IsWord w.1 w.2 := by
    intro w hw
    obtain ⟨t, ht, rfl⟩ := List.mem_map.mp hw
    exact steps.isWord t ht
  rw [← List.length_map (f := Token.word)] at separated
  obtain ⟨tokens', steps', words⟩ := Token.exists_scans_respaced real separated 0
  rw [← texts] at steps'
  refine ⟨tokens', ?_, words, ?_⟩
  · exact Token.scan_eq_ok_iff.mpr ⟨tokens', by rw [String.length_toList], steps'⟩
  · rw [parse_of_scanned steps, parse_of_scanned steps']
    exact ofTokens_same_outcome words rfl

/-- An exponent without digits is given up, and the words before and after it stay what they are. -/
theorem parse_respaced_exponent :
    let tokens : List Token := [⟨.number, "2", 0, 1⟩, ⟨.name, "e", 1, 2⟩, ⟨.operator, "+", 2, 3⟩,
      ⟨.history, "@@", 3, 5⟩, ⟨.number, "5", 5, 6⟩]
    let source' := respaced "\t" (tokens.map Token.text) [" ", "  ", "\n", " ", ""]
    Token.scan "2e+@@5".toList = .ok (tokens ++ [Token.finishAt "2e+@@5".length]) ∧
    Separated tokens.length "\t" [" ", "  ", "\n", " ", ""] ∧
    ∃ tokens', Token.scan source'.toList = .ok (tokens' ++ [Token.finishAt source'.length]) ∧
      tokens'.map Token.word = tokens.map Token.word ∧
      SameOutcome (tokens ++ [Token.finishAt "2e+@@5".length])
        (tokens' ++ [Token.finishAt source'.length]) (parse 300 "2e+@@5") (parse 300 source') := by
  intro tokens source'
  have scanned : Token.scan "2e+@@5".toList = .ok (tokens ++ [Token.finishAt "2e+@@5".length]) := by
    decide +kernel
  have blank : (["\t", " ", "  ", "\n", " ", ""].all fun gap => gap.toList.all Text.isBlank) = true := by
    decide
  have separated : Separated tokens.length "\t" [" ", "  ", "\n", " ", ""] :=
    ⟨by decide, fun gap hg => List.all_eq_true.mp (List.all_eq_true.mp blank gap hg), by decide⟩
  exact ⟨scanned, separated, parse_respaced scanned separated⟩

end Expr

end Reckoner
