import Mathlib.Data.List.TakeWhile
import Reckoner.Proofs.Token.Cut

/-!
# Words

A word is a token without its place: a kind and a text.  `IsWord` says that a text is one token and
nothing else.  Every token that a scan gives is such a word (`Scans.isWord`), and words that are
written one after the other with blanks between them are scanned back as they are
(`exists_scans_respaced`), whatever the blanks are.
-/

namespace Reckoner

namespace Token

/-- A token without its place. -/
abbrev Word := TokenKind × String

/-- The token without its place. -/
def word (t : Token) : Word := (t.kind, t.text)

/-- The text is one token of the kind: a scan of it gives that token, from the first character to the
last, and the token that ends the list. -/
def IsWord (kind : TokenKind) (text : String) : Prop :=
  scan text.toList = .ok [⟨kind, text, 0, text.length⟩, finishAt text.length]

/-- Texts one after the other with a gap before the first one and one after each. -/
def respaced (first : String) (texts gaps : List String) : String :=
  first ++ String.join (List.zipWith (· ++ ·) texts gaps)

/-- Gaps that may stand before, between and after a number of words: they are of blanks only, and none but
the outermost ones is empty. -/
structure Separated (number : Nat) (first : String) (gaps : List String) : Prop where
  aligned : gaps.length = number
  blank : ∀ gap ∈ first :: gaps, ∀ c ∈ gap.toList, Text.isBlank c = true
  apart : ∀ gap ∈ gaps.dropLast, gap ≠ ""

/-- Words one after the other with one space between any two. -/
def spaced (words : List Word) : String := " ".intercalate (words.map Prod.snd)

/-! ## Scans, step by step -/

/-- The steps of a scan that succeeds: a blank is passed over, and a token is taken off the text. -/
inductive Scans : Nat → List Char → List Token → Prop where
  | nil (place : Nat) : Scans place [] []
  | blank {place : Nat} {c : Char} {cs : List Char} {tokens : List Token}
      (hc : Text.isBlank c = true) (rest : Scans (place + 1) cs tokens) :
      Scans place (c :: cs) tokens
  | token {place n : Nat} {c : Char} {cs : List Char} {kind : TokenKind} {tokens : List Token}
      (hc : Text.isBlank c = false) (read : lexeme (c :: cs) = some (kind, n))
      (rest : Scans (place + (n + 1)) (cs.drop n) tokens) :
      Scans place (c :: cs)
        (⟨kind, String.ofList (c :: cs.take n), place, place + (n + 1)⟩ :: tokens)

theorem scanFrom_nil (place : Nat) : scanFrom place [] = .ok [] := by
  rw [scanFrom.eq_def]

theorem scanFrom_of_isBlank {c : Char} (hc : Text.isBlank c = true) (place : Nat) (cs : List Char) :
    scanFrom place (c :: cs) = scanFrom (place + 1) cs := by
  rw [scanFrom.eq_def]
  exact if_pos hc

theorem scanFrom_of_not_isBlank {c : Char} (hc : Text.isBlank c = false) (place : Nat)
    (cs : List Char) :
    scanFrom place (c :: cs) =
      match lexeme (c :: cs) with
      | none => .error ⟨place⟩
      | some (kind, n) => (scanFrom (place + (n + 1)) (cs.drop n)).map
          (⟨kind, String.ofList (c :: cs.take n), place, place + (n + 1)⟩ :: ·) := by
  rw [scanFrom.eq_def]
  exact if_neg (by rw [hc]; exact Bool.false_ne_true)

theorem scans_of_scanFrom {place : Nat} {cs : List Char} {tokens : List Token}
    (h : scanFrom place cs = .ok tokens) : Scans place cs tokens := by
  induction place, cs using scanFrom.induct generalizing tokens with
  | case1 place =>
    rw [scanFrom_nil] at h
    obtain rfl := Except.ok.inj h
    exact .nil place
  | case2 place c cs hc ih =>
    rw [scanFrom_of_isBlank hc] at h
    exact .blank hc (ih h)
  | case3 place c cs hc none =>
    rw [scanFrom_of_not_isBlank (by simpa using hc), none] at h
    exact absurd h (by simp)
  | case4 place c cs hc kind n read ih =>
    rw [scanFrom_of_not_isBlank (by simpa using hc), read] at h
    cases rest : scanFrom (place + (n + 1)) (cs.drop n) with
    | error fault => exact absurd h (by simp [rest, Except.map])
    | ok others =>
      simp only [rest] at h
      obtain rfl := Except.ok.inj h
      exact .token (by simpa using hc) read (ih rest)

theorem Scans.scanFrom_eq {place : Nat} {cs : List Char} {tokens : List Token}
    (h : Scans place cs tokens) : scanFrom place cs = .ok tokens := by
  induction h with
  | nil place => exact scanFrom_nil place
  | blank hc _ ih => rw [scanFrom_of_isBlank hc, ih]
  | token hc read _ ih =>
    rw [scanFrom_of_not_isBlank hc, read]
    simp only [ih]
    rfl

/-- A scan succeeds just if it has steps. -/
theorem scanFrom_eq_ok_iff {place : Nat} {cs : List Char} {tokens : List Token} :
    scanFrom place cs = .ok tokens ↔ Scans place cs tokens :=
  ⟨scans_of_scanFrom, Scans.scanFrom_eq⟩

/-- The tokens of a source are those of its steps and the one that ends the list. -/
theorem scan_eq_ok_iff {source : List Char} {tokens : List Token} :
    scan source = .ok tokens ↔
      ∃ words, tokens = words ++ [finishAt source.length] ∧ Scans 0 source words := by
  unfold scan
  constructor
  · intro h
    cases scanned : scanFrom 0 source with
    | error fault => rw [scanned] at h; cases h
    | ok words =>
      rw [scanned] at h
      exact ⟨words, (Except.ok.inj h).symm, scans_of_scanFrom scanned⟩
  · rintro ⟨words, rfl, steps⟩
    rw [steps.scanFrom_eq]
    rfl

/-- No token of a scan begins before the scan does. -/
theorem Scans.le_start {place : Nat} {cs : List Char} {tokens : List Token}
    (h : Scans place cs tokens) : ∀ t ∈ tokens, place ≤ t.start := by
  induction h with
  | nil => exact fun _ h => absurd h List.not_mem_nil
  | blank _ _ ih => exact fun t ht => Nat.le_of_succ_le (ih t ht)
  | token _ _ _ ih =>
    rintro t ht
    rcases List.mem_cons.mp ht with rfl | ht
    · exact Nat.le_refl _
    · exact Nat.le_trans (Nat.le_add_right ..) (ih t ht)

/-- A scan whose first token begins where the scan does begins with that token's lexeme. -/
theorem Scans.lexeme_of_start {place : Nat} {cs : List Char} {t : Token} {tokens : List Token}
    (h : Scans place cs (t :: tokens)) (start : t.start = place) :
    ∃ c ds n, cs = c :: ds ∧ Text.isBlank c = false ∧ lexeme (c :: ds) = some (t.kind, n) ∧
      t.text = String.ofList (c :: ds.take n) ∧ t.stop = place + (n + 1) := by
  cases h with
  | blank hc rest =>
    have late := rest.le_start t List.mem_cons_self
    omega
  | token hc read rest => exact ⟨_, _, _, rfl, hc, read, rfl, rfl⟩

/-! ## Words -/

/-- A word is a visible text that is a lexeme from its first character to its last. -/
theorem isWord_iff {kind : TokenKind} {text : String} :
    IsWord kind text ↔ ∃ c cs, text.toList = c :: cs ∧ Text.isBlank c = false ∧
      lexeme (c :: cs) = some (kind, cs.length) := by
  have alone : IsWord kind text ↔ Scans 0 text.toList [⟨kind, text, 0, text.length⟩] := by
    rw [← scanFrom_eq_ok_iff, IsWord, scan]
    cases scanFrom 0 text.toList with
    | error fault => simp [Except.map]
    | ok tokens =>
      have last : [⟨kind, text, 0, text.length⟩, finishAt text.length] =
          [(⟨kind, text, 0, text.length⟩ : Token)] ++ [finishAt text.length] := rfl
      simp only [Except.map, Except.ok.injEq, String.length_toList]
      rw [last, List.append_left_inj]
  rw [alone]
  constructor
  · intro h
    obtain ⟨c, cs, n, hcs, hc, read, -, stop⟩ := h.lexeme_of_start rfl
    have length : text.toList.length = text.length := String.length_toList
    rw [hcs, List.length_cons] at length
    have whole : n = cs.length := by
      simp only at stop
      omega
    exact ⟨c, cs, hcs, hc, whole ▸ read⟩
  · rintro ⟨c, cs, hcs, hc, read⟩
    have length : text.toList.length = text.length := String.length_toList
    rw [hcs, List.length_cons] at length
    have rest : Scans (0 + (cs.length + 1)) (cs.drop cs.length) [] := by
      rw [List.drop_length]
      exact .nil _
    have scanned := Scans.token hc read rest
    rw [List.take_length, ← hcs, String.ofList_toList, Nat.zero_add, length] at scanned
    exact scanned

/-- Does the text consist of one visible lexeme of the kind? -/
def isLexeme (kind : TokenKind) : List Char → Bool
  | c :: cs => !Text.isBlank c && lexeme (c :: cs) = some (kind, cs.length)
  | [] => false

instance (kind : TokenKind) (text : String) : Decidable (IsWord kind text) :=
  decidable_of_iff (isLexeme kind text.toList = true) <| by
    rw [isWord_iff]
    cases text.toList with
    | nil => simp [isLexeme]
    | cons c cs => simp [isLexeme]

/-- A lexeme cut out of its text is a word. -/
theorem isWord_of_lexeme {c : Char} {cs : List Char} {kind : TokenKind} {n : Nat}
    (hc : Text.isBlank c = false) (read : lexeme (c :: cs) = some (kind, n)) :
    IsWord kind (String.ofList (c :: cs.take n)) := by
  have cut := lexeme_take read (Nat.lt_succ_self n)
  have length : (cs.take n).length = n := by
    have within := lexeme_lt_length read
    rw [List.length_cons] at within
    rw [List.length_take]
    omega
  rw [List.take_succ_cons] at cut
  exact isWord_iff.mpr ⟨c, cs.take n, String.toList_ofList, hc, by rw [length]; exact cut⟩

/-- Every token that a scan gives is a word. -/
theorem Scans.isWord {place : Nat} {cs : List Char} {tokens : List Token}
    (h : Scans place cs tokens) : ∀ t ∈ tokens, IsWord t.kind t.text := by
  induction h with
  | nil => exact fun _ h => absurd h List.not_mem_nil
  | blank _ _ ih => exact ih
  | token hc read _ ih =>
    intro t ht
    rcases List.mem_cons.mp ht with rfl | ht
    · exact isWord_of_lexeme hc read
    · exact ih t ht

/-! ### Words with a sign of their own -/

/-- The kinds of lexeme that begin with a character of their own. -/
theorem lexeme_kind {c : Char} {cs : List Char} {kind : TokenKind} {n : Nat}
    (read : lexeme (c :: cs) = some (kind, n)) :
    (kind = .opening → c = '(' ∧ n = 0) ∧ (kind = .closing → c = ')' ∧ n = 0) ∧
      (kind = .history → c = '@' ∧ n = referenceLength cs) := by
  simp only [lexeme] at read
  by_cases opening : c = '('
  · rw [if_pos opening] at read
    obtain ⟨rfl, rfl⟩ := Prod.mk.inj (Option.some.inj read)
    simp [opening]
  rw [if_neg opening] at read
  by_cases closing : c = ')'
  · rw [if_pos closing] at read
    obtain ⟨rfl, rfl⟩ := Prod.mk.inj (Option.some.inj read)
    simp [closing]
  rw [if_neg closing] at read
  by_cases sign : c = '@'
  · rw [if_pos sign] at read
    obtain ⟨rfl, rfl⟩ := Prod.mk.inj (Option.some.inj read)
    simp [sign]
  rw [if_neg sign] at read
  grind

/-- The word of an open parenthesis. -/
theorem IsWord.eq_opening {text : String} (h : IsWord .opening text) : text = "(" := by
  obtain ⟨c, cs, hcs, -, read⟩ := isWord_iff.mp h
  obtain ⟨rfl, length⟩ := (lexeme_kind read).1 rfl
  rw [List.length_eq_zero_iff.mp length] at hcs
  exact String.toList_injective hcs

theorem IsWord.eq_closing {text : String} (h : IsWord .closing text) : text = ")" := by
  obtain ⟨c, cs, hcs, -, read⟩ := isWord_iff.mp h
  obtain ⟨rfl, length⟩ := (lexeme_kind read).2.1 rfl
  rw [List.length_eq_zero_iff.mp length] at hcs
  exact String.toList_injective hcs

/-- The word of a reference is a sign and the digits of an index, or a row of signs. -/
theorem IsWord.eq_reference {text : String} (h : IsWord .history text) :
    ∃ cs, text.toList = '@' :: cs ∧
      if Number.beginsWithDigit cs then ∀ c ∈ cs, Text.isDigit c = true
      else cs = List.replicate cs.length '@' := by
  obtain ⟨c, cs, hcs, -, read⟩ := isWord_iff.mp h
  obtain ⟨rfl, length⟩ := (lexeme_kind read).2.2 rfl
  refine ⟨cs, hcs, ?_⟩
  rw [referenceLength] at length
  by_cases digit : Number.beginsWithDigit cs = true
  · rw [if_pos digit] at length ⊢
    rw [← List.takeWhile_eq_self_iff]
    exact (List.takeWhile_prefix _).eq_of_length length.symm
  · rw [if_neg digit] at length ⊢
    have signs : cs.takeWhile (· = '@') = cs := (List.takeWhile_prefix _).eq_of_length length.symm
    refine List.eq_replicate_iff.mpr ⟨rfl, fun c hc => ?_⟩
    simpa using List.takeWhile_eq_self_iff.mp signs c hc
/-! ### Words in a row -/

/-- A word before a blank or the end is taken off the text as a token. -/
theorem IsWord.scans_append {kind : TokenKind} {text : String} (h : IsWord kind text)
    {rest : List Char} (hr : Text.Breaks rest) {place : Nat} {tokens : List Token}
    (later : Scans (place + text.length) rest tokens) :
    Scans place (text.toList ++ rest)
      (⟨kind, text, place, place + text.length⟩ :: tokens) := by
  obtain ⟨c, cs, hcs, hc, read⟩ := isWord_iff.mp h
  have length : text.toList.length = text.length := String.length_toList
  have read' : lexeme (c :: (cs ++ rest)) = some (kind, cs.length) := by
    rw [← List.cons_append, lexeme_append_of_breaks hr (List.cons_ne_nil c cs), read]
  rw [hcs, List.length_cons] at length
  have rest' : Scans (place + (cs.length + 1)) ((cs ++ rest).drop cs.length) tokens := by
    rw [List.drop_left, length]
    exact later
  have scanned := Scans.token hc read' rest'
  rw [List.take_left, ← hcs, String.ofList_toList, length] at scanned
  rw [hcs]
  exact scanned

/-- A gap before a text is passed over. -/
theorem Scans.after_gap {gap cs : List Char} (blank : ∀ c ∈ gap, Text.isBlank c = true) {place : Nat}
    {tokens : List Token} (h : Scans (place + gap.length) cs tokens) :
    Scans place (gap ++ cs) tokens := by
  induction gap generalizing place with
  | nil => exact h
  | cons c gap ih =>
    refine .blank (blank c List.mem_cons_self) (ih (fun d hd => blank d (List.mem_cons_of_mem _ hd)) ?_)
    rwa [List.length_cons, Nat.add_comm gap.length, ← Nat.add_assoc] at h

/-- Words with gaps around them, each of blanks only and none empty between two words, are scanned back as
they are. -/
theorem exists_scans_respaced {words : List Word} (h : ∀ w ∈ words, IsWord w.1 w.2) {first : String}
    {gaps : List String} (separated : Separated words.length first gaps) (place : Nat) :
    ∃ tokens, Scans place (respaced first (words.map Prod.snd) gaps).toList tokens ∧
      tokens.map word = words := by
  obtain ⟨aligned, blank, apart⟩ := separated
  -- The first gap is passed over, and the induction is on the words with the gap after each.
  suffices later : ∀ place, ∃ tokens,
      Scans place (String.join (List.zipWith (· ++ ·) (words.map Prod.snd) gaps)).toList tokens ∧
        tokens.map word = words by
    obtain ⟨tokens, scanned, same⟩ := later (place + first.toList.length)
    refine ⟨tokens, ?_, same⟩
    rw [respaced, String.toList_append]
    exact scanned.after_gap (blank first List.mem_cons_self)
  clear place
  intro place
  replace blank : ∀ gap ∈ gaps, ∀ c ∈ gap.toList, Text.isBlank c = true :=
    fun gap hg => blank gap (List.mem_cons_of_mem _ hg)
  induction words generalizing gaps place with
  | nil => exact ⟨[], .nil place, rfl⟩
  | cons w words ih =>
    match gaps with
    | [] => cases aligned
    | gap :: gaps =>
      have later : gaps.length = words.length := Nat.succ.inj aligned
      have own := blank gap List.mem_cons_self
      obtain ⟨tokens, scanned, same⟩ := ih (fun v hv => h v (List.mem_cons_of_mem _ hv)) later
        (fun g hg => apart g (by
          cases gaps with
          | nil => exact absurd hg List.not_mem_nil
          | cons g' gaps => exact List.mem_cons_of_mem _ hg))
        (place + w.2.length + gap.toList.length)
        fun g hg => blank g (List.mem_cons_of_mem _ hg)
      refine ⟨⟨w.1, w.2, place, place + w.2.length⟩ :: tokens, ?_, by rw [List.map_cons, same]; rfl⟩
      rw [List.map_cons, List.zipWith_cons_cons, String.join_cons, String.toList_append,
        String.toList_append, List.append_assoc]
      refine (h w List.mem_cons_self).scans_append ?_ (scanned.after_gap own)
      -- A word is followed by a blank, unless nothing follows it.
      cases gap' : gap.toList with
      | cons c cs => exact own c (by rw [gap']; exact List.mem_cons_self)
      | nil =>
        cases gaps with
        | nil => cases words with
          | nil => trivial
          | cons => cases later
        | cons g gaps =>
          exact absurd (String.toList_eq_nil_iff.mp gap') (apart gap List.mem_cons_self)

/-- Between spaced words stand gaps of one space, and none around them. -/
theorem spaced_eq_respaced (w : Word) (words : List Word) :
    spaced (w :: words) =
      respaced "" ((w :: words).map Prod.snd) (words.map (fun _ => " ") ++ [""]) := by
  unfold spaced respaced
  induction words generalizing w with
  | nil => simp
  | cons v words ih =>
    have later := congrArg String.toList (ih v)
    apply String.toList_injective
    simpa using later

/-- Words with one space between them are scanned back as they are. -/
theorem exists_scans_spaced {words : List Word} (h : ∀ w ∈ words, IsWord w.1 w.2) (place : Nat) :
    ∃ tokens, Scans place (spaced words).toList tokens ∧ tokens.map word = words := by
  cases words with
  | nil => exact ⟨[], .nil place, rfl⟩
  | cons w words =>
    have separated : Separated (w :: words).length "" (words.map (fun _ => " ") ++ [""]) := by
      refine ⟨by simp, fun gap hg => ?_, fun gap hg => ?_⟩
      · have spaces : gap = "" ∨ gap = " " := by
          simp only [List.mem_cons, List.mem_append, List.mem_map, List.not_mem_nil, or_false] at hg
          grind
        rcases spaces with rfl | rfl <;> exact List.all_eq_true.mp (by decide)
      · rw [List.dropLast_concat] at hg
        obtain ⟨_, _, rfl⟩ := List.mem_map.mp hg
        decide
    rw [spaced_eq_respaced]
    exact exists_scans_respaced h separated place

end Token

end Reckoner
