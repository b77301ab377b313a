import ErrorQuery.Proofs.Compiler.Strategies
import ErrorQuery.Proofs.Query.Bindings

/-!
# What comes of a query

A sequence of tokens that is read as a query has a statement, since the reading leaves no operand
that does not suit its operator and no condition that is not joined to the next.  So a text fails
to have a statement only where it fails to be a query (`statements_fail_on_syntax_only`).

The parameters of the statement are the literals of the query: the two moments and then the texts in
the order of their tokens, each as wide as the field named last before it
(`parameters_are_literals`).
-/

set_option autoImplicit false

namespace ErrorQuery

/-- What is read as a query is a sentence up to its first end. -/
theorem Query.sentence_of_ofTokens {tokens : List Token} {query : Query}
    (h : Query.ofTokens tokens = .ok query) : Grammar.Sentence (Token.beforeEnd tokens) query :=
  Grammar.sentence_of_completes (Query.ofTokens_eq_ok_iff.mp h)

/-! ### Failures -/

/-- A text has no statement exactly if it is no query, and for the same reason. -/
theorem Config.compile_eq_error_iff {config : Config} {text : String} {error : CompileError} :
    config.compile text = .error error ↔
      ∃ e, config.parse text = .error e ∧ error = .notQuery e := by
  cases hparse : config.parse text with
  | error e =>
      unfold compile
      rw [hparse]
      simp [eq_comm]
  | ok query =>
      obtain ⟨payload, hpayload⟩ := exists_compile_of_parse hparse
      rw [hpayload]
      simp

/-- Every query that is read from tokens has a statement, and so the only texts without one are
those that are no query. -/
theorem statements_fail_on_syntax_only :
    (∀ (tokens : List Token) (query : Query) (lineEnding : LineEnding),
      Query.ofTokens tokens = .ok query →
        ∃ payload, Sql.generate lineEnding query = .ok payload) ∧
    (∀ (config : Config) (text : String),
      (∀ e, config.compile text ≠ .error (.notStatement e)) ∧
      (∀ e, config.compile text = .error (.notQuery e) ↔ config.parse text = .error e) ∧
      ((∀ e, config.parse text ≠ .error e) → ∃ payload, config.compile text = .ok payload)) := by
  constructor
  · intro tokens query lineEnding htokens
    exact Sql.exists_generate_of_sentence (Query.sentence_of_ofTokens htokens) lineEnding
  · intro config text
    refine ⟨?_, ?_, ?_⟩
    · intro e herror
      obtain ⟨e', -, hsame⟩ := Config.compile_eq_error_iff.mp herror
      contradiction
    · intro e
      rw [Config.compile_eq_error_iff]
      simp
    · intro hquery
      cases hparse : config.parse text with
      | error e => exact absurd hparse (hquery e)
      | ok query => exact Config.exists_compile_of_parse hparse

/-- A query with a list has a statement, from its tokens and from its text. -/
theorem statements_fail_on_syntax_only_with_list :
    ∃ query, Query.ofTokens (Strategy.sequential.tokenize
        "match app in ('a','b') between 2016-01-01 00:00:00 and 2016-02-01 00:00:00") = .ok query ∧
      (∃ payload, Sql.generate .crlf query = .ok payload) ∧
      ∃ payload, Config.compile ⟨.sequential, .lf⟩
        "match app in ('a','b') between 2016-01-01 00:00:00 and 2016-02-01 00:00:00" =
          .ok payload := by
  let query : Query := ⟨⟨⟨2016, 1, 1, 0, 0, 0, 0, by decide, by decide⟩,
    ⟨2016, 2, 1, 0, 0, 0, 0, by decide, by decide⟩⟩, none,
    [⟨.application, .oneOf, .list ["a", "b"], none⟩]⟩
  have hparse : Config.parse ⟨.sequential, .lf⟩
      "match app in ('a','b') between 2016-01-01 00:00:00 and 2016-02-01 00:00:00" =
        .ok query := by
    decide +kernel
  refine ⟨query, hparse, statements_fail_on_syntax_only.1 _ query .crlf hparse, ?_⟩
  apply (statements_fail_on_syntax_only.2 ⟨.sequential, .lf⟩ _).2.2
  intro e herror
  rw [hparse] at herror
  simp at herror

/-! ### Parameters -/

namespace Sql

/-- What a parameter hands over: its name, its type and its value. -/
def Parameter.binding (parameter : Parameter) : String × SqlType × Value :=
  (parameter.name, parameter.type, parameter.value)

/-- The parameter at a place is that of the text at the place, numbered by it. -/
theorem getElem?_textParameters (number k : Nat) (bindings : List (Field × String)) :
    (textParameters number bindings)[k]? =
      bindings[k]?.map fun binding => .text (number + k) binding.1.width binding.2 := by
  induction bindings generalizing number k with
  | nil => rfl
  | cons binding bindings ih =>
      cases k with
      | zero => rfl
      | succ k =>
          rw [textParameters, List.getElem?_cons_succ, List.getElem?_cons_succ, ih,
            Nat.add_assoc, Nat.add_comm 1 k]

/-- The values of the parameters are the texts. -/
theorem map_value_textParameters (number : Nat) (bindings : List (Field × String)) :
    (textParameters number bindings).map Parameter.value =
      (bindings.map Prod.snd).map Value.text := by
  induction bindings generalizing number with
  | nil => rfl
  | cons binding bindings ih =>
      rw [textParameters, List.map_cons, ih]
      rfl

end Sql

/-- The texts that a query binds are those of its tokens, in order. -/
theorem Grammar.Sentence.map_snd_bindings {tokens : List Token} {query : Query}
    (h : Grammar.Sentence tokens query) : query.bindings.map Prod.snd = Token.texts tokens := by
  rw [← Token.map_snd_bindings none tokens, h.bindings, List.map_map]
  rfl

/-- The parameters of a query that is read from tokens are the two moments among the tokens and one
for each text, in order, with its number, the width of the field named last before it and its
value. -/
theorem parameters_are_literals {tokens : List Token} {query : Query}
    (h : Query.ofTokens tokens = .ok query) (lineEnding : LineEnding) :
    ∃ (payload : Sql.Payload) (first last : DateTime)
        (rest : List (String × Sql.SqlType × Sql.Value)),
      Sql.generate lineEnding query = .ok payload ∧
      (Token.moments tokens).take 2 = [some first, some last] ∧
      payload.parameters.map Sql.Parameter.binding =
        ("@FromDate", .dateTime, .moment first) :: ("@ToDate", .dateTime, .moment last) :: rest ∧
      rest.length = (Token.texts (Token.beforeEnd tokens)).length ∧
      (∀ before token after, Token.beforeEnd tokens = before ++ token :: after →
        token.kind = .text → ∃ field, Token.lastField? before = some field ∧
          rest[(Token.texts before).length]? =
            some ("@Param" ++ Text.decimal ((Token.texts before).length + 1),
              .varChar field.width, .text token.value)) ∧
      payload.values = .moment first :: .moment last ::
        (Token.texts (Token.beforeEnd tokens)).map .text := by
  have hsentence := Query.sentence_of_ofTokens h
  obtain ⟨payload, hpayload⟩ := Sql.exists_generate_of_sentence hsentence lineEnding
  obtain ⟨lines, -, rfl⟩ := Sql.generate_eq_ok_iff.mp hpayload
  have hvalues : (Sql.textParameters 1 query.bindings).map Sql.Parameter.value =
      (Token.texts (Token.beforeEnd tokens)).map .text := by
    rw [Sql.map_value_textParameters, hsentence.map_snd_bindings]
  refine ⟨_, query.range.first, query.range.last,
    (Sql.textParameters 1 query.bindings).map Sql.Parameter.binding, hpayload, ?_, rfl, ?_, ?_, ?_⟩
  · -- what stands behind the end of the query adds no moment to the first two
    obtain ⟨behind, hsplit⟩ : Token.beforeEnd tokens <+: tokens := List.takeWhile_prefix _
    rw [← hsplit, Token.moments_append, hsentence.range_moments]
    rfl
  · rw [List.length_map, ← List.length_map Sql.Parameter.value, hvalues, List.length_map]
  · intro before token after hbefore htext
    have hplace := Token.getElem?_bindings before after htext
    rw [← hbefore, hsentence.bindings, List.getElem?_map, Option.map_eq_some_iff] at hplace
    obtain ⟨⟨field, s⟩, hbinding, hsame⟩ := hplace
    obtain ⟨hfield, rfl⟩ := Prod.mk.inj hsame
    refine ⟨field, hfield.symm, ?_⟩
    rw [List.getElem?_map, Sql.getElem?_textParameters, hbinding, Nat.add_comm 1]
    rfl
  · rw [Sql.Payload.values, List.map_append, hvalues]
    rfl

/-- The two moments come first, and the third text of two conditions is bound to `@Param3`, as wide
as the field of the second. -/
theorem parameters_are_literals_of_two_fields :
    ∃ (query : Query) (payload : Sql.Payload) (rest : List (String × Sql.SqlType × Sql.Value)),
      query.conditions = [⟨.application, .oneOf, .list ["a", "b"], some .or⟩,
        ⟨.message, .like, .single "c", none⟩] ∧
      Sql.generate .lf query = .ok payload ∧
      payload.parameters.map Sql.Parameter.binding =
        ("@FromDate", .dateTime, .moment ⟨2016, 1, 1, 0, 0, 0, 0, by decide, by decide⟩) ::
        ("@ToDate", .dateTime, .moment ⟨2016, 2, 1, 0, 0, 0, 0, by decide, by decide⟩) :: rest ∧
      rest.length = 3 ∧ rest[2]? = some ("@Param3", .varChar 1000, .text "c") := by
  let before : List Token := [⟨.matching, "match", ⟨0, 5⟩⟩, ⟨.field .application, "app", ⟨6, 9⟩⟩,
    ⟨.operator .oneOf, "in", ⟨10, 12⟩⟩, ⟨.opening, "(", ⟨13, 14⟩⟩, ⟨.text, "a", ⟨14, 17⟩⟩,
    ⟨.comma, ",", ⟨17, 18⟩⟩, ⟨.text, "b", ⟨18, 21⟩⟩, ⟨.closing, ")", ⟨21, 22⟩⟩,
    ⟨.connector .or, "or", ⟨23, 25⟩⟩, ⟨.field .message, "msg", ⟨26, 29⟩⟩,
    ⟨.operator .like, "like", ⟨30, 34⟩⟩]
  let token : Token := ⟨.text, "c", ⟨35, 38⟩⟩
  let after : List Token := [⟨.between, "between", ⟨39, 46⟩⟩,
    ⟨.dateTime, "2016-01-01 00:00:00", ⟨47, 66⟩⟩, ⟨.connector .and, "and", ⟨67, 70⟩⟩,
    ⟨.dateTime, "2016-02-01 00:00:00", ⟨71, 90⟩⟩]
  let query : Query := ⟨⟨⟨2016, 1, 1, 0, 0, 0, 0, by decide, by decide⟩,
    ⟨2016, 2, 1, 0, 0, 0, 0, by decide, by decide⟩⟩, none,
    [⟨.application, .oneOf, .list ["a", "b"], some .or⟩, ⟨.message, .like, .single "c", none⟩]⟩
  have htokens : Query.ofTokens (before ++ token :: after ++ [.terminator 90]) = .ok query := by
    decide +kernel
  obtain ⟨payload, first, last, rest, hpayload, hmoments, hparameters, hlength, htexts, -⟩ :=
    parameters_are_literals htokens .lf
  obtain ⟨field, hfield, hplace⟩ := htexts before token after rfl rfl
  obtain rfl : Field.message = field := Option.some.inj hfield
  have hdates : (Token.moments (before ++ token :: after ++ [.terminator 90])).take 2 =
      [some query.range.first, some query.range.last] := by
    decide +kernel
  obtain ⟨rfl, rfl⟩ : query.range.first = first ∧ query.range.last = last := by
    simpa using hdates.symm.trans hmoments
  have hname : "@Param" ++ Text.decimal ((Token.texts before).length + 1) = "@Param3" := by
    decide +kernel
  rw [hname] at hplace
  exact ⟨query, payload, rest, rfl, hpayload, hparameters, hlength, hplace⟩

end ErrorQuery
