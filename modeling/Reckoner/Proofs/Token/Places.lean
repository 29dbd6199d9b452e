import Reckoner.Proofs.Text.Spans
import Reckoner.Proofs.Token.Numerals

/-!
# The places of a scan

A scan looks for tokens at certain places of its source: at its beginning, and then behind each blank and each
token that it finds there.  `Arrives` lists these places, with what has been found on the way.  What has been
found stays (`Arrives.scanFrom_eq`), so that it is among the tokens of the source if the scan succeeds
(`Arrives.mem_of_scan`), and every token begins at one of these places (`Arrives.of_scans`).

At each place a number is taken in its full length if the text goes on with a digit, and the scan fails if it is
a digit of another script (`number_tokens_longest`).
-/

namespace Reckoner

namespace Number

/-- A digit of another script, or another character with a numeric value that is no letter. -/
def IsForeign (c : Char) : Prop := Text.isNumeric c = true ∧ Text.isDigit c = false

/-- The text begins with a digit of another script, or with a point and such a digit. -/
def BeginsForeign (cs : List Char) : Prop :=
  ∃ c rest, IsForeign c ∧ (cs = c :: rest ∨ cs = '.' :: c :: rest)

theorem IsForeign.large {c : Char} (h : IsForeign c) : 128 ≤ c.toNat := by
  obtain ⟨numeric, other⟩ := h
  by_contra small
  rw [Text.isNumeric, if_pos (Nat.lt_of_not_le small), other] at numeric
  cases numeric

/-- With a digit of another script no number begins. -/
theorem BeginsForeign.not_begins {cs : List Char} (h : BeginsForeign cs) : ¬ Begins cs := by
  obtain ⟨c, rest, foreign, begins⟩ := h
  have point : c ≠ '.' := by
    rintro rfl
    exact absurd foreign.large (by decide)
  rintro ⟨d, rest', digit, begins'⟩
  have other : c ≠ d := by
    rintro rfl
    rw [foreign.2] at digit
    cases digit
  have notPoint : d ≠ '.' := by
    rintro rfl
    cases digit
  grind

end Number

namespace Token

/-! ## Where no token begins -/

/-- Operators are made of ASCII characters, and the point is none of theirs. -/
theorem operatorLength_eq_zero {c : Char} (cs : List Char) (other : 128 ≤ c.toNat ∨ c = '.') :
    operatorLength (c :: cs) = 0 := by
  have signs : ∀ spelling ∈ operators, spelling.toList.all (fun d => d.toNat < 128 && d ≠ '.') = true := by
    decide +kernel
  cases length : operatorLength (c :: cs) with
  | zero => rfl
  | succ n =>
    obtain ⟨spelling, mem, ⟨rest, begins⟩, some⟩ := operatorLength_eq_succ length
    cases spelled : spelling.toList with
    | nil =>
      rw [spelled] at some
      cases some
    | cons d ds =>
      rw [spelled] at begins
      obtain rfl : d = c := (List.cons.inj begins).1
      have own := signs spelling mem
      rw [spelled, List.all_cons, Bool.and_eq_true, Bool.and_eq_true, decide_eq_true_eq, decide_eq_true_eq] at own
      obtain ⟨⟨small, point⟩, -⟩ := own
      rcases other with large | same
      · exact absurd small (Nat.not_lt.mpr large)
      · exact absurd same point

/-- Nothing but a number begins with a point, and nothing at all with another character that is neither an
ASCII character nor a letter. -/
theorem lexeme_eq_none {c : Char} {cs : List Char} (number : Number.numberLength (c :: cs) = 0)
    (other : 128 ≤ c.toNat ∨ c = '.') (letter : Text.isLetter c = false) : lexeme (c :: cs) = none := by
  have differs {d : Char} (small : d.toNat < 128) (point : d ≠ '.') : c ≠ d := by
    rintro rfl
    rcases other with large | same
    · exact absurd small (Nat.not_lt.mpr large)
    · exact point same
  have name : beginsName c = false := by
    rw [beginsName, letter, Bool.or_false, decide_eq_false_iff_not]
    exact differs (by decide) (by decide)
  rw [lexeme, if_neg (differs (by decide) (by decide)), if_neg (differs (by decide) (by decide)),
    if_neg (differs (by decide) (by decide)), number, operatorLength_eq_zero cs other]
  dsimp only
  rw [name, if_neg Bool.false_ne_true]

/-- No token begins with a digit of another script, nor with a point before one. -/
theorem lexeme_of_beginsForeign {cs : List Char} (h : Number.BeginsForeign cs) :
    lexeme cs = none ∧ ∃ c rest, cs = c :: rest ∧ Text.isBlank c = false := by
  have number := Number.numberLength_eq_zero h.not_begins
  obtain ⟨c, rest, foreign, rfl | rfl⟩ := h
  · refine ⟨lexeme_eq_none number (Or.inl foreign.large) (Text.isLetter_of_isNumeric foreign.1), c, rest, rfl, ?_⟩
    by_contra blank
    rw [Bool.not_eq_false] at blank
    have numeric := foreign.1
    rw [Text.isNumeric_of_isBlank blank] at numeric
    cases numeric
  · exact ⟨lexeme_eq_none number (Or.inr rfl) rfl, '.', c :: rest, rfl, rfl⟩

/-! ## Places -/

/-- A scan of the source looks for a token at this place, and has found these by then. -/
inductive Arrives (source : List Char) : Nat → List Token → Prop where
  | start : Arrives source 0 []
  | blank {place : Nat} {found : List Token} {c : Char} {rest : List Char} (h : Arrives source place found)
      (here : source.drop place = c :: rest) (hc : Text.isBlank c = true) : Arrives source (place + 1) found
  | token {place n : Nat} {found : List Token} {c : Char} {rest : List Char} {kind : TokenKind}
      (h : Arrives source place found) (here : source.drop place = c :: rest) (hc : Text.isBlank c = false)
      (read : lexeme (c :: rest) = some (kind, n)) :
      Arrives source (place + (n + 1))
        (found ++ [⟨kind, String.ofList (c :: rest.take n), place, place + (n + 1)⟩])

section Source

variable {source : List Char} {place : Nat} {found : List Token}

theorem drop_of_drop_eq {c : Char} {rest : List Char} (here : source.drop place = c :: rest) (n : Nat) :
    source.drop (place + (n + 1)) = rest.drop n := by
  rw [← List.drop_drop, here, List.drop_succ_cons]

/-- What a scan has found stays, and it goes on from its place. -/
theorem Arrives.scanFrom_eq (h : Arrives source place found) :
    scanFrom 0 source = (scanFrom place (source.drop place)).map (found ++ ·) := by
  induction h with
  | start =>
    rw [List.drop_zero]
    cases scanFrom 0 source <;> rfl
  | blank h here hc ih =>
    rw [ih, here, scanFrom_of_isBlank hc, drop_of_drop_eq here 0, List.drop_zero]
  | token h here hc read ih =>
    rw [ih, here, scanFrom_of_not_isBlank hc, read, drop_of_drop_eq here]
    dsimp only
    cases scanFrom _ _ with
    | error fault => rfl
    | ok later =>
      simp only [Except.map, List.append_assoc, List.singleton_append]

/-- What a scan has found is among the tokens of the source. -/
theorem Arrives.mem_of_scan (h : Arrives source place found) {tokens : List Token}
    (scanned : scan source = .ok tokens) : ∀ t ∈ found, t ∈ tokens := by
  intro t ht
  rw [scan, h.scanFrom_eq] at scanned
  cases later : scanFrom place (source.drop place) with
  | error fault =>
    rw [later] at scanned
    cases scanned
  | ok others =>
    rw [later] at scanned
    obtain rfl := Except.ok.inj scanned
    exact List.mem_append_left _ (List.mem_append_left _ ht)

/-- Every token begins at a place at which the scan looks for one. -/
theorem Arrives.of_scans (h : Arrives source place found) {cs : List Char} {tokens : List Token}
    (steps : Scans place cs tokens) (here : source.drop place = cs) :
    ∀ t ∈ tokens, ∃ before, Arrives source t.start before := by
  induction steps generalizing found with
  | nil => exact fun _ mem => absurd mem List.not_mem_nil
  | blank hc _ ih =>
    refine ih (h.blank here hc) ?_
    rw [drop_of_drop_eq here 0, List.drop_zero]
  | token hc read _ ih =>
    intro t ht
    rcases List.mem_cons.mp ht with rfl | ht
    · exact ⟨found, h⟩
    · exact ih (h.token here hc read) (drop_of_drop_eq here _) t ht

end Source

/-- Every token begins at a place where the scan looks for one.  At such a place it takes the longest number
there is if the text goes on with a digit, or with a point and a digit, and it fails there if that digit is one
of another script. -/
theorem number_tokens_longest (source : List Char) :
    (∀ tokens, scan source = .ok tokens →
      ∀ t ∈ tokens, t.kind ≠ .finish → ∃ found, Arrives source t.start found) ∧
    ∀ place found, Arrives source place found →
      (Number.Begins (source.drop place) → ∃ k t, Number.Longest (source.drop place) k ∧
        t = ⟨.number, String.ofList ((source.drop place).take k), place, place + k⟩ ∧
        Arrives source (place + k) (found ++ [t]) ∧ ∀ tokens, scan source = .ok tokens → t ∈ tokens) ∧
      (Number.BeginsForeign (source.drop place) → scan source = .error ⟨place⟩) := by
  constructor
  · intro tokens scanned t mem visible
    obtain ⟨words, rfl, steps⟩ := scan_eq_ok_iff.mp scanned
    rcases List.mem_append.mp mem with word | last
    · exact Arrives.start.of_scans steps List.drop_zero t word
    · obtain rfl := List.mem_singleton.mp last
      exact absurd rfl visible
  · intro place found arrives
    constructor
    · intro begins
      have longest := Number.longest_numberLength begins
      obtain ⟨c, rest, n, here, visible, length, read⟩ := lexeme_of_begins begins
      rw [length] at longest
      rw [here] at read
      have taken := arrives.token here visible read
      rw [← List.take_succ_cons, ← here] at taken
      refine ⟨n + 1, _, longest, rfl, taken, ?_⟩
      intro tokens scanned
      exact taken.mem_of_scan scanned _ (List.mem_append_right _ (List.mem_singleton.mpr rfl))
    · intro begins
      obtain ⟨none, c, rest, here, visible⟩ := lexeme_of_beginsForeign begins
      rw [here] at none
      rw [scan, arrives.scanFrom_eq, here, scanFrom_of_not_isBlank visible, none]
      rfl

end Token

end Reckoner
