import ErrorQuery.Proofs.Query.Steps

/-!
# The grammar of queries

The grammar is stated as relations between sequences of tokens and what they denote:

    Sentence   = MATCH Chain Range LimitClause
    Chain      = Comparison { (AND | OR) Comparison }
    Comparison = field (= | != | LIKE | NOT LIKE) text
               | field (IN | NOT IN) "(" Texts ")"
    Texts      = text { "," text }
    Range      = BETWEEN moment AND moment
    LimitClause = [ LIMIT number ]

Every sentence is read (`Sentence.completes`), since each part of it leads from one stage of the
reading to the next; and what is read is a sentence (`sentence_of_completes`), since what may
follow at a stage is known from there to the end.
-/

set_option autoImplicit false

namespace ErrorQuery.Grammar

/-- Texts with commas between them. -/
inductive Texts : List Token → List String → Prop where
  | one {text : Token} : text.kind = .text → Texts [text] [text.value]
  | more {text comma : Token} {tokens : List Token} {values : List String} :
      text.kind = .text → comma.kind = .comma → Texts tokens values →
      Texts (text :: comma :: tokens) (text.value :: values)

/-- A field compared with a text or with a list of texts. -/
inductive Comparison : List Token → Field → Operator → Operand → Prop where
  | single {field operator text : Token} {f : Field} {op : Operator} :
      field.kind = .field f → operator.kind = .operator op →
      op ∈ [Operator.equals, .notEquals, .like, .notLike] → text.kind = .text →
      Comparison [field, operator, text] f op (.single text.value)
  | list {field operator opening closing : Token} {tokens : List Token} {f : Field}
      {op : Operator} {values : List String} :
      field.kind = .field f → operator.kind = .operator op → op ∈ [Operator.oneOf, .noneOf] →
      opening.kind = .opening → Texts tokens values → closing.kind = .closing →
      Comparison (field :: operator :: opening :: (tokens ++ [closing])) f op (.list values)

/-- Comparisons joined by connectors, each of which is kept with the comparison before it. -/
inductive Chain : List Token → List Condition → Prop where
  | last {tokens : List Token} {f : Field} {op : Operator} {operand : Operand} :
      Comparison tokens f op operand → Chain tokens [⟨f, op, operand, none⟩]
  | joined {tokens rest : List Token} {word : Token} {f : Field} {op : Operator}
      {operand : Operand} {c : Connector} {conditions : List Condition} :
      Comparison tokens f op operand → word.kind = .connector c → Chain rest conditions →
      Chain (tokens ++ word :: rest) (⟨f, op, operand, some c⟩ :: conditions)

/-- The two ends of the time that is covered. -/
inductive Range : List Token → DateRange → Prop where
  | mk {between first conjunction last : Token} {t u : DateTime} :
      between.kind = .between → first.kind = .dateTime →
      DateTime.ofLiteral? first.value = some t → conjunction.kind = .connector .and →
      last.kind = .dateTime → DateTime.ofLiteral? last.value = some u →
      Range [between, first, conjunction, last] ⟨t, u⟩

/-- A limit, or none. -/
inductive LimitClause : List Token → Option UInt32 → Prop where
  | absent : LimitClause [] none
  | present {word number : Token} {n : UInt32} :
      word.kind = .limit → number.kind = .number → Limit.read? number.value = some n →
      LimitClause [word, number] (some n)

/-- A whole query. -/
inductive Sentence : List Token → Query → Prop where
  | mk {word : Token} {chain range clause : List Token} {conditions : List Condition}
      {r : DateRange} {limit : Option UInt32} :
      word.kind = .matching → Chain chain conditions → Range range r → LimitClause clause limit →
      Sentence (word :: (chain ++ range ++ clause)) ⟨r, limit, conditions⟩

open Reading

/-! ### Every sentence is read -/

/-- The texts of a list are read one by one. -/
theorem Texts.reads {tokens : List Token} {values : List String} (h : Texts tokens values)
    (done : List Condition) (f : Field) (op : Operator) (earlier : List String) :
    Reads (.element done f op earlier) tokens (.separator done f op (earlier ++ values)) := by
  induction h generalizing earlier with
  | one htext => exact .single (.element htext)
  | @more text comma tokens values htext hcomma _ ih =>
      have hrest := ih (earlier ++ [text.value])
      rw [List.append_assoc, List.singleton_append] at hrest
      exact .cons (.element htext) (.cons (.comma hcomma) hrest)

/-- A comparison is read up to its tail. -/
theorem Comparison.reads {tokens : List Token} {f : Field} {op : Operator} {operand : Operand}
    (h : Comparison tokens f op operand) (done : List Condition) :
    Reads (.field done) tokens (.tail done f op operand) := by
  cases h with
  | single hfield hop hmem htext =>
      have htakes : op.takesList = false := by
        revert hmem
        cases op <;> decide
      exact .cons (.field hfield) (.cons (.single hop htakes) (.single (.text htext)))
  | list hfield hop hmem hopening htexts hclosing =>
      have htakes : op.takesList = true := by
        revert hmem
        cases op <;> decide
      exact .cons (.field hfield) (.cons (.list hop htakes) (.cons (.opening hopening)
        ((htexts.reads done f op []).append (.single (.closing hclosing)))))

/-- A chain is read up to the beginning of the range. -/
theorem Chain.reads {tokens : List Token} {conditions : List Condition}
    (h : Chain tokens conditions) {between : Token} (hbetween : between.kind = .between)
    (done : List Condition) :
    Reads (.field done) (tokens ++ [between]) (.first (done ++ conditions)) := by
  induction h generalizing done with
  | last hcomparison => exact (hcomparison.reads done).append (.single (.between hbetween))
  | @joined tokens rest word f op operand c conditions hcomparison hword _ ih =>
      have hrest := ih (done ++ [⟨f, op, operand, some c⟩])
      rw [List.append_assoc, List.singleton_append] at hrest
      rw [List.append_assoc]
      exact (hcomparison.reads done).append (.cons (.connector hword) hrest)

/-- With its limit the query is complete. -/
theorem LimitClause.completes {tokens : List Token} {limit : Option UInt32}
    (h : LimitClause tokens limit) (conditions : List Condition) (range : DateRange) :
    Completes (.limit conditions range) tokens ⟨range, limit, conditions⟩ := by
  cases h with
  | absent => exact completes_nil_iff.mpr rfl
  | present hword hnumber hread =>
      exact ⟨_, .cons (.limit hword) (.single (.number hnumber hread)), rfl⟩

/-- A sentence is read as the query it denotes. -/
theorem Sentence.completes {tokens : List Token} {query : Query} (h : Sentence tokens query) :
    Completes .start tokens query := by
  cases h with
  | @mk word chain range clause conditions r limit hword hchain hrange hclause =>
      cases hrange with
      | @mk between first conjunction last t u hbetween hfirst ht hconjunction hlast hu =>
          obtain ⟨final, hreads, hfinish⟩ := hclause.completes conditions ⟨t, u⟩
          refine ⟨final, .cons (.matching hword) ?_, hfinish⟩
          have hmoments : Reads (.first conditions) (first :: conjunction :: last :: clause) final :=
            .cons (.first hfirst ht) (.cons (.conjunction hconjunction) (.cons (.last hlast hu) hreads))
          simpa using (hchain.reads hbetween []).append hmoments

/-! ### What is read is a sentence -/

/-- What completes a query behind its range is its limit, if anything. -/
theorem limitClause_of_completes {conditions : List Condition} {range : DateRange}
    {tokens : List Token} {query : Query} (h : Completes (.limit conditions range) tokens query) :
    ∃ limit, LimitClause tokens limit ∧ query = ⟨range, limit, conditions⟩ := by
  cases tokens with
  | nil =>
      rw [completes_nil_iff] at h
      cases h
      exact ⟨none, .absent, rfl⟩
  | cons word tokens =>
      obtain ⟨next, hstep, hrest⟩ := completes_cons_iff.mp h
      cases hstep with
      | limit hword =>
          cases tokens with
          | nil =>
              rw [completes_nil_iff] at hrest
              contradiction
          | cons number tokens =>
              obtain ⟨next, hstep, hend⟩ := completes_cons_iff.mp hrest
              cases hstep with
              | @number _ _ _ n hnumber hread =>
                  cases tokens with
                  | nil =>
                      rw [completes_nil_iff] at hend
                      cases hend
                      exact ⟨some n, .present hword hnumber hread, rfl⟩
                  | cons token tokens =>
                      obtain ⟨next, hstep, -⟩ := completes_cons_iff.mp hend
                      cases hstep

/-- Behind `BETWEEN` stand two moments and possibly a limit. -/
theorem range_of_completes {conditions : List Condition} {tokens : List Token} {query : Query}
    (h : Completes (.first conditions) tokens query) {between : Token}
    (hbetween : between.kind = .between) :
    ∃ range clause r limit, between :: tokens = range ++ clause ∧ Range range r ∧
      LimitClause clause limit ∧ query = ⟨r, limit, conditions⟩ := by
  rcases tokens with _ | ⟨first, tokens⟩
  · rw [completes_nil_iff] at h
    contradiction
  obtain ⟨next, hstep, h⟩ := completes_cons_iff.mp h
  cases hstep with
  | @first _ _ t hfirst ht =>
      rcases tokens with _ | ⟨conjunction, tokens⟩
      · rw [completes_nil_iff] at h
        contradiction
      obtain ⟨next, hstep, h⟩ := completes_cons_iff.mp h
      cases hstep with
      | conjunction hconjunction =>
          rcases tokens with _ | ⟨last, tokens⟩
          · rw [completes_nil_iff] at h
            contradiction
          obtain ⟨next, hstep, h⟩ := completes_cons_iff.mp h
          cases hstep with
          | @last _ _ _ u hlast hu =>
              obtain ⟨limit, hclause, rfl⟩ := limitClause_of_completes h
              exact ⟨[between, first, conjunction, last], tokens, ⟨t, u⟩, limit, rfl,
                .mk hbetween hfirst ht hconjunction hlast hu, hclause, rfl⟩

/-- Behind an opening parenthesis or a comma stand texts up to a closing parenthesis. -/
theorem texts_of_completes {done : List Condition} {f : Field} {op : Operator}
    {earlier : List String} {tokens : List Token} {query : Query}
    (h : Completes (.element done f op earlier) tokens query) :
    ∃ texts closing rest values, tokens = texts ++ closing :: rest ∧ Texts texts values ∧
      closing.kind = .closing ∧
      Completes (.tail done f op (.list (earlier ++ values))) rest query := by
  induction hn : tokens.length using Nat.strongRecOn generalizing tokens earlier with
  | ind n ih =>
      rcases tokens with _ | ⟨text, tokens⟩
      · rw [completes_nil_iff] at h
        contradiction
      obtain ⟨next, hstep, h⟩ := completes_cons_iff.mp h
      cases hstep with
      | element htext =>
          rcases tokens with _ | ⟨mark, tokens⟩
          · rw [completes_nil_iff] at h
            contradiction
          obtain ⟨next, hstep, h⟩ := completes_cons_iff.mp h
          cases hstep with
          | closing hclosing =>
              exact ⟨[text], mark, tokens, [text.value], rfl, .one htext, hclosing, h⟩
          | comma hcomma =>
              obtain ⟨texts, closing, rest, values, rfl, htexts, hclosing, hrest⟩ :=
                ih tokens.length (by simp at hn; omega) h rfl
              refine ⟨text :: mark :: texts, closing, rest, text.value :: values, rfl,
                .more htext hcomma htexts, hclosing, ?_⟩
              simpa using hrest

/-- Where a condition may begin stands a comparison. -/
theorem comparison_of_completes {done : List Condition} {tokens : List Token} {query : Query}
    (h : Completes (.field done) tokens query) :
    ∃ comparison rest f op operand, tokens = comparison ++ rest ∧ comparison ≠ [] ∧
      Comparison comparison f op operand ∧ Completes (.tail done f op operand) rest query := by
  rcases tokens with _ | ⟨field, tokens⟩
  · rw [completes_nil_iff] at h
    contradiction
  obtain ⟨next, hstep, h⟩ := completes_cons_iff.mp h
  cases hstep with
  | @field _ _ f hfield =>
      rcases tokens with _ | ⟨operator, tokens⟩
      · rw [completes_nil_iff] at h
        contradiction
      obtain ⟨next, hstep, h⟩ := completes_cons_iff.mp h
      -- The token behind the operator tells a single text from a list.  Neither state in front of
      -- it is that of a whole query, so it cannot be missing.
      rcases tokens with _ | ⟨mark, tokens⟩
      · rw [completes_nil_iff] at h
        cases hstep <;> contradiction
      obtain ⟨next', hstep', h⟩ := completes_cons_iff.mp h
      cases hstep with
      | @single _ _ _ op hop htakes =>
          cases hstep' with
          | text htext =>
              have hmem : op ∈ [Operator.equals, .notEquals, .like, .notLike] := by
                revert htakes
                cases op <;> decide
              exact ⟨[field, operator, mark], tokens, f, op, .single mark.value, rfl, by simp,
                .single hfield hop hmem htext, h⟩
      | @list _ _ _ op hop htakes =>
          cases hstep' with
          | opening hopening =>
              have hmem : op ∈ [Operator.oneOf, .noneOf] := by
                revert htakes
                cases op <;> decide
              obtain ⟨texts, closing, rest, values, rfl, htexts, hclosing, hrest⟩ :=
                texts_of_completes h
              exact ⟨field :: operator :: mark :: (texts ++ [closing]), rest, f, op, .list values,
                by simp, by simp, .list hfield hop hmem hopening htexts hclosing, hrest⟩

/-- Where a condition may begin stands a chain up to `BETWEEN`. -/
theorem chain_of_completes {done : List Condition} {tokens : List Token} {query : Query}
    (h : Completes (.field done) tokens query) :
    ∃ chain between rest conditions, tokens = chain ++ between :: rest ∧
      Chain chain conditions ∧ between.kind = .between ∧
      Completes (.first (done ++ conditions)) rest query := by
  induction hn : tokens.length using Nat.strongRecOn generalizing tokens done with
  | ind n ih =>
      obtain ⟨comparison, rest, f, op, operand, rfl, hne, hcomparison, h⟩ :=
        comparison_of_completes h
      rcases rest with _ | ⟨word, rest⟩
      · rw [completes_nil_iff] at h
        contradiction
      obtain ⟨next, hstep, h⟩ := completes_cons_iff.mp h
      cases hstep with
      | between hbetween =>
          exact ⟨comparison, word, rest, [⟨f, op, operand, none⟩], rfl, .last hcomparison,
            hbetween, h⟩
      | @connector _ _ _ _ _ c hconnector =>
          have hlt : rest.length < n := by
            simp only [List.length_append, List.length_cons] at hn
            omega
          obtain ⟨chain, between, rest, conditions, rfl, hchain, hbetween, h⟩ := ih _ hlt h rfl
          refine ⟨comparison ++ word :: chain, between, rest, ⟨f, op, operand, some c⟩ :: conditions,
            by simp, .joined hcomparison hconnector hchain, hbetween, ?_⟩
          simpa using h

/-- What is read from the start is a sentence. -/
theorem sentence_of_completes {tokens : List Token} {query : Query}
    (h : Completes .start tokens query) : Sentence tokens query := by
  rcases tokens with _ | ⟨word, tokens⟩
  · rw [completes_nil_iff] at h
    contradiction
  obtain ⟨next, hstep, h⟩ := completes_cons_iff.mp h
  cases hstep with
  | matching hword =>
      obtain ⟨chain, between, rest, conditions, rfl, hchain, hbetween, h⟩ := chain_of_completes h
      obtain ⟨range, clause, r, limit, heq, hrange, hclause, rfl⟩ := range_of_completes h hbetween
      rw [heq, ← List.append_assoc]
      exact .mk hword hchain hrange hclause

/-- Tokens denote a query exactly if those before the first end are a sentence for it. -/
theorem ofTokens_eq_ok_iff_sentence (tokens : List Token) (query : Query) :
    Query.ofTokens tokens = .ok query ↔ Sentence (Token.beforeEnd tokens) query := by
  rw [Query.ofTokens_eq_ok_iff]
  exact ⟨sentence_of_completes, Sentence.completes⟩

end ErrorQuery.Grammar
