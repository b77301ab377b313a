import ErrorQuery.Proofs.Compiler.Strategies
import ErrorQuery.Proofs.Scan.LetterCase
import ErrorQuery.Proofs.Scan.Places

/-!
# Letter case matters inside quotes only

A reading looks at the kinds of tokens, and at the values of texts, moments and numbers
(`Reading.Step.of_alike`).  Moments and numbers have no letters, so where two texts of a query differ
in letter case only, and agree on what is quoted, they are read alike and have the same statement
(`letter_case_matters_in_quotes_only`).
-/

set_option autoImplicit false

namespace ErrorQuery

open Text

/-! ### Which values are read -/

/-- Whether the value of a token of this kind is part of a query. -/
def Kind.isLiteral : Kind → Bool
  | .text | .dateTime | .number => true
  | _ => false

/-- Tokens of one kind, with the same value if it is part of a query. -/
structure Token.ReadAlike (token token' : Token) : Prop where
  kind : token.kind = token'.kind
  value : token.kind.isLiteral = true → token.value = token'.value

namespace Reading

/-- A reading does not tell tokens apart that are read alike. -/
theorem Step.of_alike {reading next : Reading} {token token' : Token}
    (h : Step reading token next) (halike : token.ReadAlike token') :
    Step reading token' next := by
  obtain ⟨hkind, hvalue⟩ := halike
  cases h with
  | text h =>
      rw [hvalue (by rw [h]; rfl)]
      exact .text (hkind ▸ h)
  | element h =>
      rw [hvalue (by rw [h]; rfl)]
      exact .element (hkind ▸ h)
  | first h ht => exact .first (hkind ▸ h) (hvalue (by rw [h]; rfl) ▸ ht)
  | last h hu => exact .last (hkind ▸ h) (hvalue (by rw [h]; rfl) ▸ hu)
  | number h hn => exact .number (hkind ▸ h) (hvalue (by rw [h]; rfl) ▸ hn)
  | single h hop => exact .single (hkind ▸ h) hop
  | list h hop => exact .list (hkind ▸ h) hop
  | _ h =>
      rw [hkind] at h
      constructor
      exact h

/-- Tokens that are read alike lead to the same stage. -/
theorem Reads.of_alike {reading final : Reading} {tokens tokens' : List Token}
    (h : Reads reading tokens final) (halike : List.Forall₂ Token.ReadAlike tokens tokens') :
    Reads reading tokens' final := by
  induction h generalizing tokens' with
  | nil =>
      cases halike
      exact .nil
  | cons hstep _ ih =>
      obtain _ | ⟨htoken, hrest⟩ := halike
      exact .cons (hstep.of_alike htoken) (ih hrest)

end Reading

/-! ### Literals without letters -/

/-- What stands in a moment or in a number is no letter. -/
theorem Rule.not_isLetter_of_takes {rule : Rule} (hrule : rule ∈ table)
    (hkind : rule.kind = .dateTime ∨ rule.kind = .number) {taken rest : List Char}
    (ht : rule.Takes taken rest) : ∀ c ∈ taken, isLetter c = false := by
  have hdigit : ∀ c : Char, isDecimalDigit c = true → isLetter c = false := by
    intro c hc
    refine not_inRanges_of_apart ?_ hc
    decide
  rcases hkind with hkind | hkind
  · have hp : rule.pattern = .timestamp := (pattern_iff_kind hrule).2.2.mpr hkind
    obtain ⟨s, hs, hfits, hlen⟩ | ⟨hquoted, -⟩ | ⟨-, -, hdigits, -⟩ := takes_cases ht
    · intro c hc
      obtain ⟨slot, hslot, hfit⟩ := Shape.exists_slot_of_mem hlen hfits hc
      have hslots : ∀ s ∈ Pattern.timestamp.alternatives, ∀ slot ∈ s,
          slot = .digit ∨ slot = .letter '-' ∨ slot = .letter ' ' ∨ slot = .letter ':' := by
        decide
      rw [hp] at hs
      -- a mark is folded from itself only
      rcases hslots s hs slot hslot with rfl | rfl | rfl | rfl
      · exact hdigit c hfit
      all_goals
        rw [eq_of_fold_eq (by decide) (sameLetter_iff.mp hfit)]
        decide
    · rw [hp] at hquoted
      cases hquoted
    · exact fun c hc => hdigit c (hdigits c hc)
  · have hp : rule.pattern = .digitRun := (pattern_iff_kind hrule).2.1.mpr hkind
    exact fun c hc => hdigit c ((ht.digits hp).1 c hc)

/-- Moments and numbers are written without letters. -/
theorem Strategy.not_isLetter_of_mem_body {strategy : Strategy} {cs : List Char} {token : Token}
    (h : token ∈ strategy.body cs) (hkind : token.kind = .dateTime ∨ token.kind = .number) :
    ∀ c ∈ token.value.toList, isLetter c = false := by
  have hvalid : token.kind ≠ .invalid := by
    rcases hkind with hkind | hkind <;> rw [hkind] <;> decide
  have htext : token.kind ≠ .text := by
    rcases hkind with hkind | hkind <;> rw [hkind] <;> decide
  obtain ⟨rule, hrule, before, taken, rest, -, ht, rfl⟩ := fromRule_of_mem_body h hvalid
  have hwritten := Rule.written_token hrule ht (byteLength before)
  rw [Token.written, if_neg htext] at hwritten
  rw [hwritten]
  exact Rule.not_isLetter_of_takes hrule hkind ht

/-! ### Queries -/

/-- The characters of the texts that a strategy finds in `text` are the same in `text'`. -/
def Strategy.SameQuoted (strategy : Strategy) (text text' : String) : Prop :=
  ∀ token ∈ strategy.tokenize text, token.kind = .text →
    slice token.span.start token.span.stop text'.toList =
      slice token.span.start token.span.stop text.toList

/-- Lists that agree place by place agree in all that follows from it for their members. -/
theorem forall₂_of_mem {α β : Type} {R S : α → β → Prop} {xs : List α} {ys : List β}
    (h : List.Forall₂ R xs ys) (hS : ∀ x ∈ xs, ∀ y ∈ ys, R x y → S x y) :
    List.Forall₂ S xs ys := by
  induction h with
  | nil => exact .nil
  | cons hxy _ ih =>
      refine .cons (hS _ (by simp) _ (by simp) hxy) (ih fun x hx y hy => ?_)
      exact hS x (List.mem_cons_of_mem _ hx) y (List.mem_cons_of_mem _ hy)

/-- Tokens of two texts that differ in letter case outside quotes only are read alike. -/
theorem Strategy.readAlike_body {strategy : Strategy} {text text' : String}
    (h : SameTextButCase text.toList text'.toList) (hquoted : strategy.SameQuoted text text') :
    List.Forall₂ Token.ReadAlike (strategy.body text.toList) (strategy.body text'.toList) := by
  refine forall₂_of_mem (strategy.sameButCase_body h) fun token htoken token' htoken' hsame => ?_
  refine ⟨hsame.kind, fun hliteral => ?_⟩
  by_cases htext : token.kind = .text
  · -- both tokens are cut out of their texts by the same span
    have hmem : token ∈ strategy.tokenize text := by
      rw [tokenize_eq_body]
      exact List.mem_append_left _ htoken
    have hwritten : token'.written = token.written := by
      rw [← (standsIn_of_mem_body htoken).slice_eq, ← (standsIn_of_mem_body htoken').slice_eq,
        ← hsame.span]
      exact hquoted token hmem htext
    rw [Token.written, Token.written, if_pos htext, if_pos (hsame.kind ▸ htext)] at hwritten
    have hvalue : token.value.toList = token'.value.toList := by simpa using hwritten.symm
    exact String.toList_injective hvalue
  · have hkind : token.kind = .dateTime ∨ token.kind = .number := by
      revert hliteral htext
      cases token.kind <;> simp [Kind.isLiteral]
    exact String.toList_injective
      (hsame.value.eq_of_not_isLetter (not_isLetter_of_mem_body htoken hkind))

/-- Texts that differ in letter case only are cut into tokens of the same kinds at the same places,
whose values differ in letter case only.  If they agree on what is quoted, and one of them is a
query, the other is the same query and has the same statement. -/
theorem letter_case_matters_in_quotes_only :
    (∀ (strategy : Strategy) (text text' : String),
      SameTextButCase text.toList text'.toList →
        List.Forall₂ Token.SameButCase (strategy.tokenize text) (strategy.tokenize text')) ∧
    (∀ (config : Config) (text text' : String) (query : Query),
      SameTextButCase text.toList text'.toList → config.strategy.SameQuoted text text' →
      config.parse text = .ok query →
        config.parse text' = .ok query ∧
        ∃ payload, config.compile text = .ok payload ∧ config.compile text' = .ok payload) := by
  constructor
  · intro strategy text text' h
    exact strategy.sameButCase_tokenize h
  · intro config text text' query h hquoted hparse
    obtain ⟨final, hreads, hfinish⟩ := Config.parse_eq_ok_iff.mp hparse
    have hreads' := hreads.of_alike (Strategy.readAlike_body h hquoted)
    have hparse' : config.parse text' = .ok query :=
      Config.parse_eq_ok_iff.mpr ⟨final, hreads', hfinish⟩
    obtain ⟨payload, hpayload⟩ := Config.exists_compile_of_parse hparse
    refine ⟨hparse', payload, hpayload, ?_⟩
    rw [← hpayload, Config.compile, Config.compile, hparse, hparse']

/-- The case of words may change, next to a Kelvin sign as well, but not that of a quoted text. -/
theorem letter_case_matters_in_quotes_only_around_kelvin_sign :
    ∃ query,
      Config.parse ⟨.sequential, .lf⟩
          "match app li\u212ae 'Ab' between 2016-01-01 00:00:00 and 2016-01-02 00:00:00" =
        .ok query ∧
      Config.parse ⟨.sequential, .lf⟩
          "MATCH App LI\u212aE 'Ab' Between 2016-01-01 00:00:00 AND 2016-01-02 00:00:00" =
        .ok query ∧
      query.conditions = [⟨.application, .like, .single "Ab", none⟩] ∧
      List.Forall₂ Token.SameButCase (Strategy.precedence.tokenize "Or 'x' \u017fF")
        (Strategy.precedence.tokenize "oR 'X' \u017ff") := by
  let query : Query := ⟨⟨⟨2016, 1, 1, 0, 0, 0, 0, by decide, by decide⟩,
    ⟨2016, 1, 2, 0, 0, 0, 0, by decide, by decide⟩⟩, none,
    [⟨.application, .like, .single "Ab", none⟩]⟩
  have hparse : Config.parse ⟨.sequential, .lf⟩
      "match app li\u212ae 'Ab' between 2016-01-01 00:00:00 and 2016-01-02 00:00:00" =
        .ok query := by
    decide +kernel
  refine ⟨query, hparse, ?_, rfl, ?_⟩
  · exact (letter_case_matters_in_quotes_only.2 ⟨.sequential, .lf⟩ _ _ query (by decide +kernel)
      (by unfold Strategy.SameQuoted; decide +kernel) hparse).1
  · exact letter_case_matters_in_quotes_only.1 .precedence _ _ (by decide +kernel)

end ErrorQuery
