import Reckoner.Expr.Parse
import Reckoner.Proofs.Token.Word

/-!
# A scan covers its source

Nothing of a source is lost in a scan.  Its tokens stand in the source at the places that they name, one
after the other, and every character outside them is a blank (`Scans.covers`).  Where a scan fails, what
stands before the place of the fault is free of faults (`exists_scans_of_error`): cutting the source off
there changes none of the tokens before, because a token never depends on what follows it.

`Covers` says this of a text that begins at some place of the source.  It is a property of pieces: what is
put together from covered pieces is covered (`Covers.append`), and a step of a scan takes a piece off the
text, a blank or a token.
-/

namespace Reckoner

namespace Token

/-- The tokens of a text that begins at a place of the source: each is the piece of the text between the
places that it names, they do not overlap, and what lies outside them is blank. -/
structure Covers (place : Nat) (cs : List Char) (tokens : List Token) : Prop where
  within : ∀ t ∈ tokens, place ≤ t.start ∧ t.start < t.stop ∧ t.stop ≤ place + cs.length
  text : ∀ t ∈ tokens, t.text.toList = (cs.drop (t.start - place)).take (t.stop - t.start)
  apart : tokens.Pairwise fun t u => t.stop ≤ u.start
  blank : ∀ i c, cs[i]? = some c → (∀ t ∈ tokens, place + i < t.start ∨ t.stop ≤ place + i) →
    Text.isBlank c = true

theorem covers_nil (place : Nat) : Covers place [] [] where
  within _ h := absurd h List.not_mem_nil
  text _ h := absurd h List.not_mem_nil
  apart := .nil
  blank _ _ h := by simp at h

theorem covers_blank (place : Nat) {c : Char} (hc : Text.isBlank c = true) : Covers place [c] [] where
  within _ h := absurd h List.not_mem_nil
  text _ h := absurd h List.not_mem_nil
  apart := .nil
  blank i d h _ := by
    obtain rfl := List.mem_singleton.mp (List.mem_of_getElem? h)
    exact hc

theorem covers_token (place : Nat) (kind : TokenKind) {cs : List Char} (hcs : cs ≠ []) :
    Covers place cs [⟨kind, String.ofList cs, place, place + cs.length⟩] where
  within t ht := by
    have filled := List.length_pos_iff.mpr hcs
    obtain rfl := List.mem_singleton.mp ht
    simp only
    omega
  text t ht := by
    obtain rfl := List.mem_singleton.mp ht
    simp
  apart := List.pairwise_singleton _ _
  blank i d h outside := by
    have inside := (List.getElem?_eq_some_iff.mp h).1
    have := outside _ List.mem_cons_self
    simp only at this
    omega

/-- What is put together from covered pieces is covered. -/
theorem Covers.append {place : Nat} {xs ys : List Char} {ts us : List Token} (hx : Covers place xs ts)
    (hy : Covers (place + xs.length) ys us) : Covers place (xs ++ ys) (ts ++ us) where
  within t ht := by
    rw [List.length_append]
    rcases List.mem_append.mp ht with ht | ht
    · have := hx.within t ht
      omega
    · have := hy.within t ht
      omega
  text t ht := by
    rcases List.mem_append.mp ht with ht | ht
    · have := hx.within t ht
      rw [hx.text t ht, List.drop_append_of_le_length (by omega),
        List.take_append_of_le_length (by rw [List.length_drop]; omega)]
    · have := hy.within t ht
      have past : t.start - place = xs.length + (t.start - (place + xs.length)) := by omega
      rw [hy.text t ht, past, List.drop_length_add_append]
  apart := by
    refine List.pairwise_append.mpr ⟨hx.apart, hy.apart, fun t ht u hu => ?_⟩
    have := hx.within t ht
    have := hy.within u hu
    omega
  blank i c h outside := by
    rcases Nat.lt_or_ge i xs.length with first | second
    · rw [List.getElem?_append_left first] at h
      exact hx.blank i c h fun t ht => outside t (List.mem_append_left _ ht)
    · rw [List.getElem?_append_right second] at h
      refine hy.blank (i - xs.length) c h fun t ht => ?_
      have := outside t (List.mem_append_right _ ht)
      omega

/-- The tokens of a scan cover the text. -/
theorem Scans.covers {place : Nat} {cs : List Char} {tokens : List Token}
    (h : Scans place cs tokens) : Covers place cs tokens := by
  induction h with
  | nil place => exact covers_nil place
  | @blank place c cs tokens hc _ ih => exact (covers_blank place hc).append ih
  | @token place n c cs kind tokens hc read _ ih =>
    have within := lexeme_lt_length read
    rw [List.length_cons] at within
    have length : (c :: cs.take n).length = n + 1 := by
      rw [List.length_cons, List.length_take]
      omega
    have first := covers_token place kind (List.cons_ne_nil c (cs.take n))
    rw [← length] at ih
    have whole := first.append ih
    rw [List.cons_append, List.take_append_drop, length] at whole
    exact whole

/-- No token that begins somewhere is of the kind that ends the list. -/
theorem lexeme_ne_finish {cs : List Char} {n : Nat} : lexeme cs ≠ some (.finish, n) := by
  cases cs with
  | nil => simp [lexeme]
  | cons c cs =>
    unfold lexeme
    grind

theorem Scans.kind_ne_finish {place : Nat} {cs : List Char} {tokens : List Token}
    (h : Scans place cs tokens) : ∀ t ∈ tokens, t.kind ≠ .finish := by
  induction h with
  | nil => exact fun _ h => absurd h List.not_mem_nil
  | blank _ _ ih => exact ih
  | token _ read _ ih =>
    intro t ht
    rcases List.mem_cons.mp ht with rfl | ht
    · rintro rfl
      exact lexeme_ne_finish read
    · exact ih t ht

/-- Where a scan fails stands a visible character at which no token begins, and what stands before it is
scanned without a fault. -/
theorem exists_scans_of_error {place : Nat} {cs : List Char} {fault : LexFault}
    (h : scanFrom place cs = .error fault) :
    ∃ k c rest, fault.place = place + k ∧ cs.drop k = c :: rest ∧ Text.isBlank c = false ∧
      lexeme (c :: rest) = none ∧ ∃ tokens, Scans place (cs.take k) tokens := by
  induction place, cs using scanFrom.induct with
  | case1 place =>
    rw [scanFrom_nil] at h
    cases h
  | case2 place c cs hc ih =>
    rw [scanFrom_of_isBlank hc] at h
    obtain ⟨k, d, rest, hk, drop, visible, none, tokens, scanned⟩ := ih h
    exact ⟨k + 1, d, rest, by omega, drop, visible, none, tokens, .blank hc scanned⟩
  | case3 place c cs hc none =>
    have visible : Text.isBlank c = false := by simpa using hc
    rw [scanFrom_of_not_isBlank visible, none] at h
    obtain rfl := Except.error.inj h
    exact ⟨0, c, cs, rfl, rfl, visible, none, [], .nil place⟩
  | case4 place c cs hc kind n read ih =>
    have visible : Text.isBlank c = false := by simpa using hc
    rw [scanFrom_of_not_isBlank visible, read] at h
    cases later : scanFrom (place + (n + 1)) (cs.drop n) with
    | ok others => simp [later, Except.map] at h
    | error fault' =>
      simp only [later, Except.map, Except.error.injEq] at h
      subst h
      obtain ⟨k, d, rest, hk, drop, visible', none, tokens, scanned⟩ := ih later
      rw [List.drop_drop] at drop
      -- The token before the place of the fault is not changed by the cut.
      have read' : lexeme (c :: cs.take (n + k)) = some (kind, n) :=
        lexeme_take (n := n + k + 1) read (by omega)
      have rest' : Scans (place + (n + 1)) ((cs.take (n + k)).drop n) tokens := by
        rwa [List.drop_take, Nat.add_sub_cancel_left]
      exact ⟨n + k + 1, d, rest, by omega, drop, visible', none, _, .token visible read' rest'⟩

/-- A scan that succeeds gives tokens that cover the source, and the one token at its end; a scan that
fails does so at a visible character, which the fault spans, behind a source without faults. -/
theorem scan_covers (limit : Nat) (source : List Char) :
    match scan source with
    | .ok tokens => ∃ words, tokens = words ++ [finishAt source.length] ∧
        (∀ t ∈ words, t.kind ≠ .finish) ∧ Covers 0 source words
    | .error fault => fault.place < source.length ∧
        (∃ c, source[fault.place]? = some c ∧ Text.isBlank c = false) ∧
        (∃ tokens, scan (source.take fault.place) = .ok tokens) ∧
        ∃ f, Expr.parse limit (String.ofList source) = .error (.calculation (.malformed f)) ∧
          f.start = fault.place ∧ f.stop = fault.place + 1 := by
  unfold scan
  cases scanned : scanFrom 0 source with
  | ok words =>
    have steps := scans_of_scanFrom scanned
    exact ⟨words, rfl, steps.kind_ne_finish, steps.covers⟩
  | error fault =>
    obtain ⟨k, c, rest, hk, drop, visible, -, tokens, before⟩ := exists_scans_of_error scanned
    rw [Nat.zero_add] at hk
    subst hk
    have there : source[fault.place]? = some c := by
      rw [← List.head?_drop, drop, List.head?_cons]
    refine ⟨(List.getElem?_eq_some_iff.mp there).1, ⟨c, there, visible⟩, ?_, ?_⟩
    · rw [before.scanFrom_eq]
      exact ⟨_, rfl⟩
    · have rejected : Expr.parse limit (String.ofList source) = .error (Expr.lexFault source fault) := by
        simp only [Expr.parse, String.toList_ofList, scanned]
      exact ⟨_, rejected, rfl, rfl⟩

end Token

end Reckoner
