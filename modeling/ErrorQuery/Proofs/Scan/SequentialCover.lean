import ErrorQuery.Proofs.Scan.Coverage
import ErrorQuery.Proofs.Scan.Order

/-!
# The sequential scan passes over nothing but blanks

The tokens of the sequential scan stand one behind the other, and every character that is not blank
lies in one of them.  The walk over the text carries this with its state, the end of the last token:
no later token begins before it (`Sequential.forward`), and every place behind it that is not blank
comes to lie in a token (`Sequential.exists_contains_of_solid`).

What a token is depends on the text from its first character on (`exists_place_of_mem_run`): it is
that of the first rule of the table which takes anything there, or, if there is none, everything up
to the next blank.  `sequential_tokens_fill_text` puts the two together for a whole text.
-/

set_option autoImplicit false

namespace ErrorQuery

open Text

namespace Token

/-- The token is that of the first rule in the table which takes anything at the front of a
text. -/
def IsFirstMatch (token : Token) (cs : List Char) : Prop :=
  ∃ earlier rule later, Rule.table = earlier ++ rule :: later ∧
    (∀ r ∈ earlier, r.tokenAt? token.span.start cs = none) ∧
    rule.tokenAt? token.span.start cs = some token

/-- No rule takes anything at the front of a text, and the value of the token is everything up to
the next blank. -/
def IsUnmatchedRun (token : Token) (cs : List Char) : Prop :=
  (∀ rule ∈ Rule.table, rule.tokenAt? token.span.start cs = none) ∧
    token.value.toList = cs.takeWhile Sequential.isSolid

end Token

/-- A character that begins inside a token lies in it as a whole. -/
theorem Token.StandsIn.stop_of_contains {token : Token} {before after : List Char} {c : Char}
    (h : token.StandsIn (before ++ c :: after)) (hlt : byteLength before < token.span.stop) :
    byteLength (before ++ [c]) ≤ token.span.stop :=
  h.boundaries.2.le_of_lt hlt

namespace Sequential

/-! ### One token -/

/-- Where no rule takes anything the token is invalid. -/
theorem tokenAt_eq_invalidToken {position : Nat} {cs : List Char}
    (h : ruleToken? position cs = none) : tokenAt position cs = invalidToken position cs := by
  rw [tokenAt, h, Option.getD_none]

/-- A token takes up at least the character that it begins with. -/
theorem lt_stop_tokenAt {c : Char} (hc : isBlank c = false) (position : Nat) (cs : List Char) :
    position < (tokenAt position (c :: cs)).span.stop := by
  have hgrow (d : Char) (ds : List Char) : position < position + byteLength (d :: ds) := by
    have hpos := Char.utf8Size_pos d
    rw [byteLength_cons]
    omega
  cases htoken : ruleToken? position (c :: cs) with
  | none =>
      have hrun : (c :: cs).takeWhile isSolid = c :: cs.takeWhile isSolid := by
        simp [isSolid, hc]
      rw [tokenAt_eq_invalidToken htoken, invalidToken, hrun]
      exact hgrow c _
  | some token =>
      obtain ⟨rule, taken, rest, -, hlead, rfl⟩ := exists_leads_of_ruleToken? htoken
      obtain ⟨d, ds, rfl, -⟩ := hlead.takes.exists_cons hlead.mem_table
      rw [tokenAt, htoken]
      exact hgrow d ds

/-- What the scan makes at a place is the first match there or an unmatched run. -/
theorem tokenAt_cases (position : Nat) (cs : List Char) :
    ((tokenAt position cs).kind ≠ .invalid ∧ (tokenAt position cs).IsFirstMatch cs) ∨
      ((tokenAt position cs).kind = .invalid ∧ (tokenAt position cs).IsUnmatchedRun cs) := by
  have hstart := (span_tokenAt position cs).1
  cases htoken : ruleToken? position cs with
  | none =>
      right
      rw [Token.IsUnmatchedRun, hstart, tokenAt_eq_invalidToken htoken]
      rw [ruleToken?, List.findSome?_eq_none_iff] at htoken
      exact ⟨rfl, htoken, String.toList_ofList⟩
  | some token =>
      left
      have htokenAt : tokenAt position cs = token := by rw [tokenAt, htoken, Option.getD_some]
      rw [Token.IsFirstMatch, hstart, htokenAt]
      rw [ruleToken?, List.findSome?_eq_some_iff] at htoken
      obtain ⟨earlier, rule, later, htable, hmatch, hearlier⟩ := htoken
      refine ⟨?_, earlier, rule, later, htable, hearlier, hmatch⟩
      obtain ⟨taken, rest, -, -, rfl⟩ := Rule.exists_takes_of_tokenAt? hmatch
      exact (Rule.kind_ne (by rw [htable]; simp)).1

/-! ### The walk -/

/-- Every token is made at a character that is not blank. -/
theorem exists_place_of_mem_run {cs : List Char} {token : Token}
    (h : token ∈ scanner.run 0 0 cs) :
    ∃ before c after, cs = before ++ c :: after ∧ isBlank c = false ∧
      token = tokenAt (byteLength before) (c :: after) := by
  obtain ⟨before, rest, free, rfl, hne, -, htoken⟩ :=
    Scanner.exists_of_mem_run (I := fun _ => True) (fun _ _ _ _ => trivial) trivial h
  obtain ⟨c, after, rfl⟩ := List.exists_cons_of_ne_nil hne
  simp only [scanner, Nat.zero_add, Option.ite_none_left_eq_some, Option.some.injEq] at htoken
  refine ⟨before, c, after, rfl, ?_, htoken.2.symm⟩
  simpa using fun hblank => htoken.1 (.inr hblank)

/-- The sequential scan reaches the end of its last token. -/
theorem forward : scanner.Forward id where
  start := start_of_token?
  start_le_stop := by
    intro free position cs token h
    simp only [scanner, Option.ite_none_left_eq_some, Option.some.injEq] at h
    obtain ⟨-, rfl⟩ := h
    have hspan := span_tokenAt position cs
    omega
  reach_le := by
    intro free position cs token h
    simp only [scanner, Option.ite_none_left_eq_some] at h
    exact Nat.not_lt.mp fun hlt => h.1 (.inl hlt)
  reach_next := by
    intro free position cs
    simp only [scanner, id_eq]
    split
    · rfl
    · rfl

/-- The tokens stand one behind the other. -/
theorem pairwise_run (free position : Nat) (cs : List Char) :
    (scanner.run free position cs).Pairwise fun a b => a.span.stop ≤ b.span.start :=
  forward.pairwise_run free position cs

/-- A character that is not blank lies in a token that has been made already or is made by the
walk. -/
theorem exists_contains_of_solid {free position : Nat} {before : List Char} {c : Char}
    (hc : isBlank c = false) (hfree : free ≤ position + byteLength before) (after : List Char) :
    ∃ token ∈ scanner.run free position (before ++ c :: after),
      token.span.Contains (position + byteLength before) := by
  induction before generalizing free position with
  | nil =>
      rw [byteLength_nil, Nat.add_zero] at hfree ⊢
      rw [List.nil_append, run_cons after hfree hc]
      refine ⟨_, List.mem_cons_self, ?_, lt_stop_tokenAt hc position after⟩
      exact Nat.le_of_eq (span_tokenAt position (c :: after)).1
  | cons d before ih =>
      rw [byteLength_cons, ← Nat.add_assoc] at hfree ⊢
      rw [List.cons_append]
      by_cases hquiet : position < free ∨ isBlank d = true
      · rw [run_skip _ hquiet]
        exact ih hfree
      · rw [run_cons _ (by omega) (by simp_all)]
        -- the token made at `d` reaches past the character, or the walk goes on behind it
        by_cases hreach : position + d.utf8Size + byteLength before <
            (tokenAt position (d :: (before ++ c :: after))).span.stop
        · refine ⟨_, List.mem_cons_self, ?_, hreach⟩
          rw [(span_tokenAt position _).1]
          omega
        · obtain ⟨token, htoken, hcontains⟩ := ih (Nat.not_lt.mp hreach)
          exact ⟨token, List.mem_cons_of_mem _ htoken, hcontains⟩

end Sequential

/-- Of tokens that stand one behind the other only one contains a byte. -/
theorem Token.eq_of_contains {tokens : List Token}
    (hpairwise : tokens.Pairwise fun a b => a.span.stop ≤ b.span.start) {a b : Token}
    (ha : a ∈ tokens) (hb : b ∈ tokens) {n : Nat} (hna : a.span.Contains n)
    (hnb : b.span.Contains n) : a = b := by
  obtain ⟨halow, hahigh⟩ := hna
  obtain ⟨hblow, hbhigh⟩ := hnb
  induction hpairwise with
  | nil => simp at ha
  | cons hbehind _ ih =>
      rcases List.mem_cons.mp ha with rfl | halater
      · rcases List.mem_cons.mp hb with rfl | hblater
        · rfl
        · have hle := hbehind b hblater
          omega
      · rcases List.mem_cons.mp hb with rfl | hblater
        · have hle := hbehind a halater
          omega
        · exact ih halater hblater

/-- The tokens of the sequential strategy before the end of the query stand one behind the other,
each where its span says; a character that is not blank lies in exactly one of them; and each is the
first match at its place, or everything up to the next blank where no rule matches. -/
theorem sequential_tokens_fill_text (text : String) :
    ∃ tokens, Strategy.sequential.tokenize text = tokens ++ [.terminator text.utf8ByteSize] ∧
      (∀ token ∈ tokens, token.kind ≠ .terminator) ∧
      (tokens.Pairwise fun a b => a.span.stop ≤ b.span.start) ∧
      (∀ token ∈ tokens, token.span.start < token.span.stop ∧
        IsBoundary text.toList token.span.start ∧ IsBoundary text.toList token.span.stop ∧
        slice token.span.start token.span.stop text.toList = token.written) ∧
      (∀ before c after, text.toList = before ++ c :: after → isBlank c = false →
        ∃! token, token ∈ tokens ∧ token.span.start ≤ byteLength before ∧
          byteLength (before ++ [c]) ≤ token.span.stop) ∧
      (∀ token ∈ tokens,
        (token.kind ≠ .invalid ∧
          token.IsFirstMatch (dropBytes token.span.start text.toList)) ∨
        (token.kind = .invalid ∧
          token.IsUnmatchedRun (dropBytes token.span.start text.toList))) := by
  have hstands {token : Token} (htoken : token ∈ Strategy.sequential.body text.toList) :
      token.StandsIn text.toList := Strategy.standsIn_of_mem_body htoken
  have hpairwise := Sequential.pairwise_run 0 0 text.toList
  refine ⟨Strategy.sequential.body text.toList, ?_, ?_, hpairwise, ?_, ?_, ?_⟩
  · rw [Strategy.tokenize_eq_body, byteLength_toList]
  · intro token htoken
    exact Strategy.kind_ne_terminator_of_mem_body htoken
  · intro token htoken
    refine ⟨?_, (hstands htoken).boundaries.1, (hstands htoken).boundaries.2,
      (hstands htoken).slice_eq⟩
    obtain ⟨before, c, after, -, hc, rfl⟩ := Sequential.exists_place_of_mem_run htoken
    rw [(Sequential.span_tokenAt _ _).1]
    exact Sequential.lt_stop_tokenAt hc _ after
  · intro before c after hsplit hc
    obtain ⟨token, htoken, hcontains⟩ :=
      Sequential.exists_contains_of_solid hc (Nat.zero_le (0 + byteLength before)) after
    rw [← hsplit] at htoken
    rw [Nat.zero_add] at hcontains
    have hwhole := hstands htoken
    rw [hsplit] at hwhole
    refine ⟨token, ⟨htoken, hcontains.1, hwhole.stop_of_contains hcontains.2⟩, ?_⟩
    rintro other ⟨hother, hlow, hhigh⟩
    have hpos := Char.utf8Size_pos c
    simp only [byteLength_append, byteLength_cons, byteLength_nil] at hhigh
    exact Token.eq_of_contains hpairwise hother htoken ⟨hlow, by omega⟩ hcontains
  · intro token htoken
    obtain ⟨before, c, after, hsplit, -, rfl⟩ := Sequential.exists_place_of_mem_run htoken
    rw [(Sequential.span_tokenAt _ _).1, hsplit, dropBytes_append]
    exact Sequential.tokenAt_cases _ _

/-- A word that begins with a keyword is cut in two, and behind it a character of two bytes between
quotes lies in the one token that takes the quotes along. -/
theorem sequential_tokens_fill_text_behind_cut_word :
    ∃ tokens, Strategy.sequential.tokenize "inside 'é'" = tokens ++ [.terminator 11] ∧
      tokens = [⟨.operator .oneOf, "in", ⟨0, 2⟩⟩, ⟨.invalid, "side", ⟨2, 6⟩⟩,
        ⟨.text, "é", ⟨7, 11⟩⟩] ∧
      ∀ token ∈ tokens, token.span.start ≤ 8 → 10 ≤ token.span.stop →
        token = ⟨.text, "é", ⟨7, 11⟩⟩ := by
  have hsize : "inside 'é'".utf8ByteSize = 11 := by decide
  have hlist : Strategy.sequential.tokenize "inside 'é'" =
      [⟨.operator .oneOf, "in", ⟨0, 2⟩⟩, ⟨.invalid, "side", ⟨2, 6⟩⟩, ⟨.text, "é", ⟨7, 11⟩⟩] ++
        [.terminator 11] := by
    decide +kernel
  obtain ⟨tokens, htokens, -, -, -, hcover, -⟩ := sequential_tokens_fill_text "inside 'é'"
  rw [hsize, hlist] at htokens
  obtain rfl := List.append_cancel_right htokens
  refine ⟨_, hlist, rfl, ?_⟩
  intro token htoken hstart hstop
  have hunique := hcover "inside '".toList 'é' ['\''] (by decide) (by decide)
  exact hunique.unique ⟨htoken, hstart, hstop⟩ ⟨by simp, by decide, by decide⟩

end ErrorQuery
