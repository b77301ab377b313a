import ErrorQuery.Compiler
import ErrorQuery.Proofs.Query.DeadEnd
import ErrorQuery.Proofs.Scan.Places

/-!
# The place that a syntax error points at

A text that is no query is rejected at one of its tokens (`Config.token_mem_of_parse_error`), and
every token stands in the text where its span says.  So the span of an error cuts out what the error
says was found, with the quotes around it if it is a quoted text, or else it is the end of the text
(`syntax_errors_point_at_text`).
-/

set_option autoImplicit false

namespace ErrorQuery

open Text

/-- A text is rejected at one of its tokens, since they are closed by the end of the query. -/
theorem Config.token_mem_of_parse_error {config : Config} {text : String} {e : SyntaxError}
    (h : config.parse text = .error e) : e.token ∈ config.strategy.tokenize text := by
  obtain ⟨before, middle, hreads, -, ⟨after, htokens⟩ | ⟨htokens, -⟩⟩ :=
    Reading.run_eq_error_iff.mp h
  · rw [htokens]
    simp
  · have hend : Token.terminator (byteLength text.toList) ∈ before := by
      rw [← htokens, Strategy.tokenize_eq_body]
      simp
    exact absurd (Token.terminator_kind _) (hreads.kind_ne_terminator _ hend)

namespace SyntaxError

/-- An error at the end of a query says that it has found the end. -/
theorem found_of_terminator {e : SyntaxError} (h : e.token.kind = .terminator) :
    e.found = "end of query" := by
  rw [found, if_pos h]
  rfl

/-- Unless the query ends, the characters of the token are what was found, possibly in quotes. -/
theorem written_token {e : SyntaxError} (h : e.token.kind ≠ .terminator) :
    e.token.written = e.found.toList ∨
      e.token.written = '\'' :: (e.found.toList ++ ['\'']) := by
  rw [found, if_neg h, Token.written]
  split
  · exact .inr rfl
  · exact .inl rfl

end SyntaxError

/-- The span of a syntax error lies in the text and between characters of it, and what it cuts out is
what was found, with quotes around it or without, unless it is the end of the text. -/
theorem syntax_errors_point_at_text {config : Config} {text : String} {e : SyntaxError}
    (h : config.parse text = .error e) :
    e.token.span.start ≤ e.token.span.stop ∧ e.token.span.stop ≤ text.utf8ByteSize ∧
      IsBoundary text.toList e.token.span.start ∧ IsBoundary text.toList e.token.span.stop ∧
      ((e.found = "end of query" ∧ e.token.span = ⟨text.utf8ByteSize, text.utf8ByteSize⟩) ∨
        slice e.token.span.start e.token.span.stop text.toList = e.found.toList ∨
        slice e.token.span.start e.token.span.stop text.toList =
          '\'' :: (e.found.toList ++ ['\''])) := by
  have hmem := Config.token_mem_of_parse_error h
  rw [Strategy.tokenize_eq_body, List.mem_append, List.mem_singleton] at hmem
  rcases hmem with hbody | hend
  · have hstands := Strategy.standsIn_of_mem_body hbody
    have hkind := Strategy.kind_ne_terminator_of_mem_body hbody
    rw [← byteLength_toList, hstands.slice_eq]
    exact ⟨hstands.start_le_stop, hstands.stop_le, hstands.boundaries.1, hstands.boundaries.2,
      .inr (SyntaxError.written_token hkind)⟩
  · have hfound : e.found = "end of query" :=
      SyntaxError.found_of_terminator (by rw [hend, Token.terminator_kind])
    have hboundary : IsBoundary text.toList text.utf8ByteSize :=
      ⟨text.toList, [], by simp, byteLength_toList text⟩
    rw [hend, Token.terminator_span, byteLength_toList]
    exact ⟨Nat.le_refl _, Nat.le_refl _, hboundary, hboundary, .inl ⟨hfound, rfl⟩⟩

/-- A quoted text in place of a field is cut out with its quotes, a character of two bytes between
them. -/
theorem syntax_errors_point_at_text_in_quotes :
    ∃ e, Config.parse ⟨.sequential, .lf⟩ "match 'é' = 'x'" = .error e ∧ e.found = "é" ∧
      e.token.span = ⟨6, 10⟩ ∧
      slice e.token.span.start e.token.span.stop "match 'é' = 'x'".toList = "'é'".toList := by
  have herror : Config.parse ⟨.sequential, .lf⟩ "match 'é' = 'x'" =
      .error ⟨.field, ⟨.text, "é", ⟨6, 10⟩⟩⟩ := by
    decide +kernel
  refine ⟨_, herror, rfl, rfl, ?_⟩
  obtain ⟨-, -, -, -, ⟨hfound, -⟩ | hplain | hquoted⟩ := syntax_errors_point_at_text herror
  · exact absurd hfound (by decide)
  · exact absurd hplain (by decide)
  · exact hquoted

end ErrorQuery
