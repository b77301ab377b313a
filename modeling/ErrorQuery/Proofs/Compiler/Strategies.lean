import ErrorQuery.Compiler
import ErrorQuery.Proofs.Scan.Agreement
import ErrorQuery.Proofs.Sql.Faults

/-!
# Both strategies on the text of a query

A text is a query exactly if the tokens of its body, the end left aside, are read as one
(`Config.parse_eq_ok_iff`), and then it has a statement (`Config.exists_compile_of_parse`).

The two strategies make the same tokens of a text without invalid tokens, but for numbers glued to
a moment.  In a query a number stands behind `LIMIT` only, and no token of it is invalid, so both
strategies make the same tokens of every text that the sequential one finds to be a query.
-/

set_option autoImplicit false

namespace ErrorQuery

open Text

/-! ### Reading the body of a text -/

namespace Config

/-- Up to the end of the query a text has the tokens of its body. -/
theorem beforeEnd_tokenize (strategy : Strategy) (text : String) :
    Token.beforeEnd (strategy.tokenize text) = strategy.body text.toList := by
  rw [Token.beforeEnd, Strategy.tokenize_eq_body, List.takeWhile_append_of_pos]
  · simp
  · intro token htoken
    simpa using Strategy.kind_ne_terminator_of_mem_body htoken

/-- A text is a query exactly if its body is read as one. -/
theorem parse_eq_ok_iff {config : Config} {text : String} {query : Query} :
    config.parse text = .ok query ↔
      Reading.start.Completes (config.strategy.body text.toList) query := by
  rw [parse, Query.ofTokens_eq_ok_iff, beforeEnd_tokenize]

/-- The body of a query is a sentence. -/
theorem sentence_of_parse {config : Config} {text : String} {query : Query}
    (h : config.parse text = .ok query) :
    Grammar.Sentence (config.strategy.body text.toList) query :=
  Grammar.sentence_of_completes (parse_eq_ok_iff.mp h)

/-- A text has a statement exactly if it is a query that has one. -/
theorem compile_eq_ok_iff {config : Config} {text : String} {payload : Sql.Payload} :
    config.compile text = .ok payload ↔
      ∃ query, config.parse text = .ok query ∧
        Sql.generate config.lineEnding query = .ok payload := by
  unfold compile
  cases config.parse text with
  | error e => simp
  | ok query =>
      simp only [Except.ok.injEq, exists_eq_left']
      exact mapError_eq_ok_iff

/-- Every query has a statement. -/
theorem exists_compile_of_parse {config : Config} {text : String} {query : Query}
    (h : config.parse text = .ok query) : ∃ payload, config.compile text = .ok payload := by
  obtain ⟨payload, hpayload⟩ :=
    Sql.exists_generate_of_sentence (sentence_of_parse h) config.lineEnding
  exact ⟨payload, compile_eq_ok_iff.mpr ⟨query, h, hpayload⟩⟩

end Config

/-! ### Tokens of a query -/

namespace Reading

/-- An invalid token is not read. -/
theorem Step.kind_ne_invalid {reading next : Reading} {token : Token}
    (h : Step reading token next) : token.kind ≠ .invalid := by
  cases h <;> simp [*]

/-- A number is read only where one is waited for. -/
theorem Step.awaits_number {reading next : Reading} {token : Token} (h : Step reading token next)
    (hkind : token.kind = .number) : ∃ conditions range, reading = .number conditions range := by
  cases h with
  | number _ _ => exact ⟨_, _, rfl⟩
  | _ => simp_all

/-- A number is waited for only behind `LIMIT`. -/
theorem Step.kind_of_awaits_number {reading next : Reading} {token : Token}
    (h : Step reading token next) {conditions : List Condition} {range : DateRange}
    (hnext : next = .number conditions range) : token.kind = .limit := by
  cases h with
  | limit hkind => exact hkind
  | _ => simp at hnext

/-- Among tokens that are read none is invalid. -/
theorem Reads.kind_ne_invalid {reading final : Reading} {tokens : List Token}
    (h : Reads reading tokens final) : ∀ token ∈ tokens, token.kind ≠ .invalid := by
  induction h with
  | nil => simp
  | cons hstep _ ih =>
      intro token hmem
      rcases List.mem_cons.mp hmem with rfl | hmem
      · exact hstep.kind_ne_invalid
      · exact ih token hmem

/-- No token that is read is glued to the one before it. -/
theorem Reads.withoutGlued {reading final : Reading} {tokens : List Token}
    (h : Reads reading tokens final) {previous : Option Token}
    (hprevious : ∀ conditions range, reading = .number conditions range →
      ∀ token ∈ previous, token.kind = .limit) :
    ErrorQuery.withoutGlued previous tokens = tokens := by
  induction h generalizing previous with
  | nil => rfl
  | @cons reading next final token tokens hstep _ ih =>
      have hfree : token.isGluedTo previous = false := by
        cases hglued : token.isGluedTo previous with
        | false => rfl
        | true =>
            simp only [Token.isGluedTo, Bool.and_eq_true, beq_iff_eq, Option.any_eq_true] at hglued
            obtain ⟨hnumber, moment, hmoment, hdate, -⟩ := hglued
            obtain ⟨conditions, range, hreading⟩ := hstep.awaits_number hnumber
            rw [hprevious conditions range hreading moment hmoment] at hdate
            contradiction
      have htail := @ih (some token) fun conditions range hnext other hother => by
        obtain rfl : token = other := by simpa using hother
        exact hstep.kind_of_awaits_number hnext
      rw [ErrorQuery.withoutGlued, hfree, if_neg Bool.false_ne_true, htail]

end Reading

/-! ### Agreement -/

namespace Strategy

/-- What is read from a sequential scan is read from either. -/
theorem body_of_completes {cs : List Char} {query : Query}
    (h : Reading.start.Completes (sequential.body cs) query) :
    precedence.body cs = sequential.body cs := by
  obtain ⟨final, hreads, -⟩ := h
  rw [body_of_valid hreads.kind_ne_invalid]
  exact hreads.withoutGlued (by simp)

end Strategy

/-- The two strategies agree on texts without invalid tokens but for numbers glued to a moment,
and entirely on queries, which therefore have the same meaning and the same statement. -/
theorem strategies_agree :
    (∀ text : String,
      (∀ token ∈ Strategy.sequential.tokenize text, token.kind ≠ .invalid) →
        Strategy.precedence.tokenize text =
          withoutGlued none (Strategy.sequential.tokenize text)) ∧
    (∀ (text : String) (query : Query) (lineEnding : LineEnding),
      Config.parse ⟨.sequential, lineEnding⟩ text = .ok query →
        Strategy.precedence.tokenize text = Strategy.sequential.tokenize text ∧
        Config.parse ⟨.precedence, lineEnding⟩ text = .ok query ∧
        ∃ payload, Config.compile ⟨.sequential, lineEnding⟩ text = .ok payload ∧
          Config.compile ⟨.precedence, lineEnding⟩ text = .ok payload) := by
  constructor
  · intro text hvalid
    rw [Strategy.tokenize_eq_body, Strategy.tokenize_eq_body, withoutGlued_concat,
      Strategy.body_of_valid]
    intro token htoken
    refine hvalid token ?_
    rw [Strategy.tokenize_eq_body]
    exact List.mem_append_left _ htoken
  · intro text query lineEnding hparse
    have hbody := Strategy.body_of_completes (Config.parse_eq_ok_iff.mp hparse)
    have htokens : Strategy.precedence.tokenize text = Strategy.sequential.tokenize text := by
      rw [Strategy.tokenize_eq_body, Strategy.tokenize_eq_body, hbody]
    have hsame : Config.parse ⟨.precedence, lineEnding⟩ text =
        Config.parse ⟨.sequential, lineEnding⟩ text := by
      rw [Config.parse, Config.parse, htokens]
    obtain ⟨payload, hpayload⟩ := Config.exists_compile_of_parse hparse
    refine ⟨htokens, hsame.trans hparse, payload, hpayload, ?_⟩
    rw [← hpayload, Config.compile, Config.compile, hsame]

/-- A number glued to a moment is left out, and a query is read alike. -/
theorem strategies_agree_on_moment_and_query :
    Strategy.precedence.tokenize "2016-01-01 00:00:0012 and" =
        [⟨.dateTime, "2016-01-01 00:00:00", ⟨0, 19⟩⟩, ⟨.connector .and, "and", ⟨22, 25⟩⟩,
          .terminator 25] ∧
      (∃ query, Config.parse ⟨.sequential, .lf⟩
          "match app = 'a' between 2016-01-01 00:00:00 and 2016-01-02 00:00:00 limit 5" = .ok query ∧
        Config.parse ⟨.precedence, .lf⟩
          "match app = 'a' between 2016-01-01 00:00:00 and 2016-01-02 00:00:00 limit 5" =
            .ok query) := by
  constructor
  · rw [strategies_agree.1 _ (by decide +kernel)]
    decide +kernel
  · have hquery : ∃ query, Config.parse ⟨.sequential, .lf⟩
        "match app = 'a' between 2016-01-01 00:00:00 and 2016-01-02 00:00:00 limit 5" = .ok query := by
      refine ⟨⟨⟨⟨2016, 1, 1, 0, 0, 0, 0, by decide, by decide⟩,
        ⟨2016, 1, 2, 0, 0, 0, 0, by decide, by decide⟩⟩, some 5,
        [⟨.application, .equals, .single "a", none⟩]⟩, ?_⟩
      decide +kernel
    obtain ⟨query, hquery⟩ := hquery
    exact ⟨query, hquery, (strategies_agree.2 _ query .lf hquery).2.1⟩

end ErrorQuery
