import ErrorQuery.Proofs.Compiler.Outcome
import ErrorQuery.Proofs.Query.DeadEnd
import ErrorQuery.Proofs.Scan.Appended
import ErrorQuery.Proofs.Text.Numerals

/-!
# Queries with a limit appended

A query without a limit ends where one may follow (`Reading.Reads.eq_limit`), and a limit that is
appended leaves its tokens as they are, so what comes of it hangs on the number alone
(`Config.exists_parse_limitClause`).  The number is read exactly if it consists of ASCII digits and
fits into 32 bits (`Limit.read?_of_digits`).  Of the statement it changes the first line only
(`Sql.generate_withLimit`).
-/

set_option autoImplicit false

namespace ErrorQuery

open Text

/-- The query with the given limit. -/
def Query.withLimit (query : Query) (limit : Option UInt32) : Query :=
  { query with limit := limit }

/-! ### The number -/

/-- The digits are those of ASCII, and their number fits into 32 bits. -/
def Limit.Fits (digits : List Char) : Prop :=
  (∀ c ∈ digits, isAsciiDigit c = true) ∧ digitsValue digits ≤ 4294967295

instance (digits : List Char) : Decidable (Limit.Fits digits) :=
  inferInstanceAs (Decidable (_ ∧ _))

/-- Digits of any script are read as a limit exactly if they are those of ASCII and fit. -/
theorem Limit.read?_of_digits {s : String} (hne : s.toList ≠ [])
    (hdigits : ∀ c ∈ s.toList, isDecimalDigit c = true) :
    read? s = if Fits s.toList then some (UInt32.ofNat (digitsValue s.toList)) else none := by
  have hread : read? s = ofDigits? s.toList := by
    unfold read?
    split
    · rename_i cs hplus
      have hdigit := hdigits '+' (by simp [hplus])
      exact absurd hdigit (by decide)
    · rfl
  have hempty : s.toList.isEmpty = false := by simpa using hne
  have hfits : (s.toList.all isAsciiDigit && decide (digitsValue s.toList < 4294967296)) = true ↔
      Fits s.toList := by
    rw [Fits, Bool.and_eq_true, List.all_eq_true, decide_eq_true_eq]
    exact and_congr_right fun _ => by omega
  rw [hread, ofDigits?, hempty, Bool.not_false, Bool.true_and]
  exact if_congr hfits rfl rfl

/-! ### The reading -/

namespace Reading

/-- A query is complete with a number only. -/
theorem Step.limit_ne_none {reading next : Reading} {token : Token} (h : Step reading token next)
    {query : Query} (hnext : next = .complete query) : query.limit ≠ none := by
  cases h with
  | number _ _ =>
      obtain rfl := Reading.complete.inj hnext
      simp
  | _ => contradiction

/-- A reading that cannot be complete without a limit does not end without one. -/
theorem Reads.limit_ne_none {reading final : Reading} {tokens : List Token}
    (h : Reads reading tokens final)
    (hreading : ∀ query, reading = .complete query → query.limit ≠ none) {query : Query}
    (hfinal : final = .complete query) : query.limit ≠ none := by
  induction h with
  | nil => exact hreading query hfinal
  | cons hstep _ ih => exact ih (fun _ hnext => hstep.limit_ne_none hnext) hfinal

/-- Where a query without a limit ends, a limit may follow. -/
theorem Reads.eq_limit {tokens : List Token} {final : Reading} {query : Query}
    (h : Reads .start tokens final) (hfinish : final.finish = .ok query)
    (hlimit : query.limit = none) : final = .limit query.conditions query.range := by
  cases final with
  | limit conditions range =>
      cases hfinish
      rfl
  | complete other =>
      cases hfinish
      exact absurd hlimit (h.limit_ne_none (by simp) rfl)
  | _ => contradiction

end Reading

/-- A limit behind a query without one is read as its number is. -/
theorem Config.exists_parse_limitClause {config : Config} {text : String} {query : Query}
    (h : config.parse text = .ok query) (hlimit : query.limit = none) {digits : String}
    (hne : digits.toList ≠ []) (hdigits : ∀ c ∈ digits.toList, isDecimalDigit c = true) :
    ∃ number : Token, number.kind = .number ∧ number.value = digits ∧
      config.parse (text ++ " LIMIT " ++ digits) =
        match Limit.read? digits with
        | some n => .ok (query.withLimit (some n))
        | none => .error ⟨.number, number⟩ := by
  -- a query without a limit ends where one may follow
  obtain ⟨final, hreads, hfinish⟩ := parse_eq_ok_iff.mp h
  obtain rfl := hreads.eq_limit hfinish hlimit
  obtain ⟨keyword, number, hbody, hkeyword, hnumber, hvalue⟩ :=
    config.strategy.exists_body_limitClause text.toList hne hdigits
  rw [String.ofList_toList] at hvalue
  have htext : (text ++ " LIMIT " ++ digits).toList = text.toList ++ limitClause digits.toList := by
    simp [limitClause]
  have hbefore : Reading.Reads .start (config.strategy.body text.toList ++ [keyword])
      (.number query.conditions query.range) := hreads.append (.single (.limit hkeyword))
  have hopen : number.kind ≠ .terminator := by
    rw [hnumber]
    decide
  have htokens : config.strategy.tokenize (text ++ " LIMIT " ++ digits) =
      config.strategy.body text.toList ++ [keyword] ++
        [number, .terminator (byteLength (text.toList ++ limitClause digits.toList))] := by
    rw [Strategy.tokenize_eq_body, htext, hbody]
    simp
  refine ⟨number, hnumber, hvalue, ?_⟩
  -- all that is left to read is the number
  rw [parse, Query.ofTokens, htokens, hbefore.run_append]
  cases hread : Limit.read? digits with
  | some n =>
      have hstep : Reading.Step (.number query.conditions query.range) number
          (.complete (query.withLimit (some n))) := .number hnumber (hvalue ▸ hread)
      rw [Reading.run, if_neg hopen, Reading.step_eq_ok_iff.mpr hstep]
      rfl
  | none =>
      refine Reading.run_cons_of_rejects ?_ _ _
      rw [Reading.Rejects, if_neg hopen]
      simp only [Reading.step, hnumber, hvalue, hread]

/-! ### The statement -/

/-- A limit changes the first line of a statement only. -/
theorem Sql.generate_withLimit {lineEnding : LineEnding} {query : Query} {payload : Payload}
    (h : generate lineEnding query = .ok payload) :
    ∃ rest, ∀ limit, generate lineEnding (query.withLimit limit) =
      .ok ⟨lineEnding.text, selectLine limit ++ lineEnding.text ++ rest, payload.parameters⟩ := by
  obtain ⟨lines, hlines, rfl⟩ := generate_eq_ok_iff.mp h
  obtain ⟨conditionLines, hconditions, -⟩ := Option.map_eq_some_iff.mp hlines
  refine ⟨lineText lineEnding.text (projection ++ rangeLine :: conditionLines ++ grouping),
    fun limit => generate_eq_ok_iff.mpr ⟨_, Option.map_eq_some_iff.mpr ⟨_, hconditions, rfl⟩, ?_⟩⟩
  rw [List.cons_append, List.cons_append, lineText_cons]
  rfl

/-- A limit behind a query without one is accepted exactly if it is written in ASCII digits and fits
into 32 bits, whatever its leading zeros.  Then the query is the same but for the limit, and the
statement but for its first line.  Any other number is what the error reports. -/
theorem limits_are_exact_in_32_bits (config : Config) (text : String) (query : Query)
    (h : config.parse text = .ok query) (hlimit : query.limit = none) (digits : String)
    (hne : digits ≠ "") (hdigits : ∀ c ∈ digits.toList, isDecimalDigit c = true) :
    ((∃ payload, config.compile (text ++ " LIMIT " ++ digits) = .ok payload) ↔
        (∀ c ∈ digits.toList, isAsciiDigit c = true) ∧ digitsValue digits.toList ≤ 4294967295) ∧
      (∀ payload, config.compile (text ++ " LIMIT " ++ digits) = .ok payload →
        ∃ (n : UInt32) (rest : String) (parameters : List Sql.Parameter),
          n.toNat = digitsValue digits.toList ∧
          config.parse (text ++ " LIMIT " ++ digits) = .ok { query with limit := some n } ∧
          config.compile text = .ok ⟨config.lineEnding.text,
            "SELECT" ++ config.lineEnding.text ++ rest, parameters⟩ ∧
          payload = ⟨config.lineEnding.text, "SELECT TOP " ++ decimal n.toNat ++
            config.lineEnding.text ++ rest, parameters⟩) ∧
      ∀ error, config.compile (text ++ " LIMIT " ++ digits) = .error error →
        ∃ e, error = .notQuery e ∧ e.expected.text = "an integer number" ∧ e.found = digits := by
  have hlist : digits.toList ≠ [] := by
    simpa using hne
  obtain ⟨number, hkind, hvalue, hparse⟩ :=
    Config.exists_parse_limitClause h hlimit hlist hdigits
  rw [Limit.read?_of_digits hlist hdigits] at hparse
  by_cases hfits : Limit.Fits digits.toList
  · rw [if_pos hfits] at hparse
    obtain ⟨payload, hpayload⟩ :=
      Sql.exists_generate_of_sentence (Config.sentence_of_parse h) config.lineEnding
    obtain ⟨rest, hrest⟩ := Sql.generate_withLimit hpayload
    have hcompile := Config.compile_eq_ok_iff.mpr ⟨_, hparse, hrest _⟩
    -- the statement without the limit is that of the query itself
    have hplain : query.withLimit none = query := by
      rw [← hlimit]
      rfl
    have htext := Config.compile_eq_ok_iff.mpr ⟨query, h, hplain ▸ hrest none⟩
    have hvalue : (UInt32.ofNat (digitsValue digits.toList)).toNat = digitsValue digits.toList :=
      UInt32.toNat_ofNat_of_lt (Nat.lt_succ_of_le hfits.2)
    refine ⟨⟨fun _ => hfits, fun _ => ⟨_, hcompile⟩⟩, fun limited hlimited => ?_, ?_⟩
    · rw [hcompile] at hlimited
      exact ⟨_, rest, payload.parameters, hvalue, hparse, htext, (Except.ok.inj hlimited).symm⟩
    · intro error herror
      rw [hcompile] at herror
      contradiction
  · rw [if_neg hfits] at hparse
    have hcompile : config.compile (text ++ " LIMIT " ++ digits) =
        .error (.notQuery ⟨.number, number⟩) :=
      Config.compile_eq_error_iff.mpr ⟨_, hparse, rfl⟩
    rw [hcompile]
    refine ⟨⟨?_, fun hlimit => absurd hlimit hfits⟩, ?_, ?_⟩
    · rintro ⟨payload, hpayload⟩
      contradiction
    · intro payload hpayload
      contradiction
    · intro error herror
      refine ⟨⟨.number, number⟩, (Except.error.inj herror).symm, rfl, ?_⟩
      rw [SyntaxError.found, if_neg (by rw [hkind]; decide)]
      exact hvalue

/-- Behind a query that ends in half a keyword and an open quote, both dropped, the greatest limit is
taken with its leading zeros, and the next number is not. -/
theorem limits_are_exact_in_32_bits_behind_open_quote :
    let text := "match app = 'a' between 2016-01-01 00:00:00 and 2016-01-02 00:00:00 not 'x"
    (∃ rest parameters, Config.compile ⟨.precedence, .lf⟩ (text ++ " LIMIT " ++ "004294967295") =
      .ok ⟨"\n", "SELECT TOP 4294967295\n" ++ rest, parameters⟩) ∧
    ∃ e, Config.compile ⟨.precedence, .lf⟩ (text ++ " LIMIT " ++ "4294967296") =
      .error (.notQuery e) ∧ e.found = "4294967296" := by
  intro text
  let query : Query := ⟨⟨⟨2016, 1, 1, 0, 0, 0, 0, by decide, by decide⟩,
    ⟨2016, 1, 2, 0, 0, 0, 0, by decide, by decide⟩⟩, none,
    [⟨.application, .equals, .single "a", none⟩]⟩
  have hparse : Config.parse ⟨.precedence, .lf⟩ text = .ok query := by
    decide +kernel
  constructor
  · obtain ⟨haccepted, hstatement, -⟩ := limits_are_exact_in_32_bits ⟨.precedence, .lf⟩ text query
      hparse rfl "004294967295" (by decide) (List.all_eq_true.mp (by decide))
    obtain ⟨payload, hpayload⟩ :=
      haccepted.mpr ⟨List.all_eq_true.mp (by decide), by decide⟩
    obtain ⟨n, rest, parameters, hn, -, -, rfl⟩ := hstatement payload hpayload
    have hfirst : "SELECT TOP " ++ decimal n.toNat ++ "\n" = "SELECT TOP 4294967295\n" := by
      rw [hn]
      decide +kernel
    exact ⟨rest, parameters, hfirst ▸ hpayload⟩
  · obtain ⟨haccepted, -, hrejected⟩ := limits_are_exact_in_32_bits ⟨.precedence, .lf⟩ text query
      hparse rfl "4294967296" (by decide) (List.all_eq_true.mp (by decide))
    cases hcompile : Config.compile ⟨.precedence, .lf⟩ (text ++ " LIMIT " ++ "4294967296") with
    | ok payload => exact absurd (haccepted.mp ⟨payload, hcompile⟩).2 (by decide)
    | error error =>
        obtain ⟨e, rfl, -, hfound⟩ := hrejected error hcompile
        exact ⟨e, rfl, hfound⟩

end ErrorQuery
