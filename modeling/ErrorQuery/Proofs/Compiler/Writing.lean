import ErrorQuery.Proofs.Compiler.Strategies
import ErrorQuery.Proofs.Query.Writing

/-!
# Queries that are written and read back

A well-formed query comes back unchanged from every text that its lexemes are written in, whichever
way the text is split into tokens, and nothing but well-formed queries is ever read
(`written_queries_are_read_back`).  So the well-formed queries are exactly those that some text
denotes.
-/

set_option autoImplicit false

namespace ErrorQuery

open Text

namespace Config

/-- A query is read from what is written of it. -/
theorem parse_of_written {query : Query} (hquery : query.WellFormed) {text : String}
    (htext : Written query.lexemes text.toList) (config : Config) :
    config.parse text = .ok query := by
  obtain ⟨tokens, htiling, hread⟩ := htext.exists_tiling hquery.writable_lexemes 0
  have hcompletes := (Grammar.sentence_of_lexemes hquery hread).completes
  have hsequential := (Strategy.body_of_tiling htiling).1
  rw [← hsequential] at hcompletes
  rw [parse_eq_ok_iff]
  cases config.strategy with
  | sequential => exact hcompletes
  | precedence =>
      rw [Strategy.body_of_completes hcompletes]
      exact hcompletes

/-- Every query that is read is well formed. -/
theorem wellFormed_of_parse {config : Config} {text : String} {query : Query}
    (h : config.parse text = .ok query) : query.WellFormed := by
  have hsentence := sentence_of_parse h
  obtain ⟨chain, hchain⟩ := hsentence.chain
  have hmoment {t : DateTime} (ht : t = query.range.first ∨ t = query.range.last) :
      t.Writable := by
    obtain ⟨token, hmem, hkind, hdenotes⟩ := hsentence.moments ht
    exact DateTime.writable_of_ofLiteral? hdenotes
      (Strategy.startsWithDigit_of_mem_body hmem hkind)
  have hunquoted : ∀ condition ∈ query.conditions, condition.Unquoted := by
    intro condition hcondition value hvalue
    have hmem : value ∈ query.conditions.flatMap (·.operand.values) :=
      List.mem_flatMap.mpr ⟨condition, hcondition, hvalue⟩
    rw [← hsentence.texts] at hmem
    obtain ⟨token, htoken, rfl⟩ := List.mem_map.mp hmem
    obtain ⟨hbody, hkind⟩ := List.mem_filter.mp htoken
    exact Strategy.unquoted_of_mem_body hbody (by simpa using hkind)
  exact ⟨hchain.conditions_joined, hchain.conditions_suited, hunquoted, hmoment (.inl rfl),
    hmoment (.inr rfl)⟩

end Config

/-- Every well-formed query can be written down and is read back from every text that it is written
in, and every query that is read is well formed. -/
theorem written_queries_are_read_back :
    (∀ (query : Query) (text : String) (config : Config), query.WellFormed →
      Written query.lexemes text.toList → config.parse text = .ok query) ∧
    (∀ query : Query, query.WellFormed → Written query.lexemes query.text.toList) ∧
    (∀ (config : Config) (text : String) (query : Query),
      config.parse text = .ok query → query.WellFormed) := by
  refine ⟨?_, ?_, ?_⟩
  · intro query text config hquery htext
    exact Config.parse_of_written hquery htext config
  · intro query hquery
    exact hquery.written_text
  · intro config text query h
    exact Config.wellFormed_of_parse h

/-- A leap second, a list and the greatest limit are read back from words in any case, and from
the text that is written of the query. -/
theorem written_queries_are_read_back_with_leap_second :
    ∃ query : Query, query.range.last.second = 60 ∧ query.limit = some 4294967295 ∧
      Config.parse ⟨.sequential, .lf⟩ ("MATCH\tApp  Not In ( 'or' )\nBetween 2016-12-31 00:00:00" ++
        " AND 2016-12-31 23:59:60 limit 4294967295") = .ok query ∧
      Config.parse ⟨.precedence, .lf⟩ query.text = .ok query ∧ query.WellFormed := by
  let query : Query :=
    ⟨⟨⟨2016, 12, 31, 0, 0, 0, 0, by decide, by decide⟩,
      ⟨2016, 12, 31, 23, 59, 60, 0, by decide, by decide⟩⟩, some 4294967295,
      [⟨.application, .noneOf, .list ["or"], none⟩]⟩
  have hquery : query.WellFormed := by decide +kernel
  have hparse := written_queries_are_read_back.1 query _ ⟨.precedence, .lf⟩ hquery
    (written_queries_are_read_back.2.1 query hquery)
  refine ⟨query, rfl, rfl, ?_, hparse, written_queries_are_read_back.2.2 _ _ query hparse⟩
  apply written_queries_are_read_back.1 query _ _ hquery
  -- the text falls into the lexemes of the query and the blanks between them
  refine (congrArg (Written query.lexemes) (?_ : _ = "MATCH".toList ++ ("\t".toList ++
    ("App".toList ++ ("  ".toList ++ ("Not In".toList ++ (" ".toList ++ ("(".toList ++
    (" ".toList ++ ("'or'".toList ++ (" ".toList ++ (")".toList ++ ("\n".toList ++
    ("Between".toList ++ (" ".toList ++ ("2016-12-31 00:00:00".toList ++ (" ".toList ++
    ("AND".toList ++ (" ".toList ++ ("2016-12-31 23:59:60".toList ++ (" ".toList ++
    ("limit".toList ++ (" ".toList ++ "4294967295".toList))))))))))))))))))))))).mpr ?_
  · decide +kernel
  · iterate 11
      refine .more (by decide +kernel) (by decide) (List.all_eq_true.mp (by decide +kernel)) ?_
    exact .last (by decide +kernel)

end ErrorQuery
