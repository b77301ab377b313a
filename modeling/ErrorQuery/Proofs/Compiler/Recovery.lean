import ErrorQuery.Proofs.Compiler.Outcome
import ErrorQuery.Proofs.Sql.Shape

/-!
# A query is found again in its statement

The text of a statement and its parameters leave nothing open but the connector of the last
condition, which they do not show (`statement_determines_query`).

The lines are told from the text, and the limit from the first of them.  The line of a condition is
read from the left: none of the words in front of a condition begins another, and the same is true
of the columns and of the texts between column and placeholders (`PrefixFree`).  How many texts a
condition has is seen from the count of its placeholders, so that the values of the parameters can
be handed out to the conditions one by one (`conditionLines?_inj`).
-/

set_option autoImplicit false

namespace ErrorQuery

/-! ### Queries up to the last connector -/

/-- Conditions without the connector of the last one. -/
def unjoinLast : List Condition → List Condition
  | [] => []
  | [condition] => [{ condition with connector := none }]
  | condition :: next :: conditions => condition :: unjoinLast (next :: conditions)

/-- A query without the connector of its last condition. -/
def Query.unjoinLast (query : Query) : Query :=
  { query with conditions := ErrorQuery.unjoinLast query.conditions }

/-- Conditions of which the last is not joined to another stay as they are. -/
theorem unjoinLast_of_joined {conditions : List Condition} (h : Joined conditions) :
    unjoinLast conditions = conditions := by
  fun_induction unjoinLast conditions with
  | case1 => rfl
  | case2 condition =>
      obtain ⟨field, operator, operand, connector⟩ := condition
      obtain rfl : connector = none := h
      rfl
  | case3 condition next conditions ih => rw [ih h.2]

/-- The last condition of a query that has been read is not joined. -/
theorem Query.unjoinLast_of_ofTokens {tokens : List Token} {query : Query}
    (h : Query.ofTokens tokens = .ok query) : query.unjoinLast = query := by
  obtain ⟨chain, hchain⟩ := (Query.sentence_of_ofTokens h).chain
  rw [Query.unjoinLast, ErrorQuery.unjoinLast_of_joined hchain.conditions_joined]

/-- Conditions agree up to the last connector if their first ones do, and the others. -/
theorem unjoinLast_cons_congr {field : Field} {operator : Operator} {operand : Operand}
    {connector connector' : Option Connector} {conditions conditions' : List Condition}
    (h : unjoinLast conditions = unjoinLast conditions')
    (hconnector : conditions ≠ [] → connector = connector') :
    unjoinLast (⟨field, operator, operand, connector⟩ :: conditions) =
      unjoinLast (⟨field, operator, operand, connector'⟩ :: conditions') := by
  have hempty (cs : List Condition) : unjoinLast cs = [] ↔ cs = [] := by
    fun_cases unjoinLast cs <;> simp
  cases conditions with
  | nil =>
      obtain rfl : conditions' = [] := (hempty conditions').mp h.symm
      rfl
  | cons condition conditions =>
      cases conditions' with
      | nil => exact absurd ((hempty _).mp h) (by simp)
      | cons condition' conditions' =>
          rw [unjoinLast, unjoinLast, h, hconnector (by simp)]

namespace Sql

open Text

/-! ### Texts that do not begin each other -/

/-- No text of the family begins another one. -/
def PrefixFree {α : Type} (text : α → String) : Prop :=
  ∀ a b, (text a).toList <+: (text b).toList → a = b

/-- What stands in front is told from what follows. -/
theorem PrefixFree.append_inj {α : Type} {text : α → String} (h : PrefixFree text) {a b : α}
    {rest rest' : String} (heq : text a ++ rest = text b ++ rest') : a = b ∧ rest = rest' := by
  have hlists : (text a).toList ++ rest.toList = (text b).toList ++ rest'.toList := by
    rw [← String.toList_append, heq, String.toList_append]
  have hfront : (text a).toList <+: (text b).toList ++ rest'.toList :=
    ⟨rest.toList, hlists⟩
  obtain rfl : a = b := by
    rcases List.prefix_or_prefix_of_prefix hfront (List.prefix_append _ _) with hprefix | hprefix
    · exact h a b hprefix
    · exact (h b a hprefix).symm
  exact ⟨rfl, String.toList_inj.mp (List.append_cancel_left hlists)⟩

/-- No word in front of a condition begins with another. -/
theorem prefixFree_lead : PrefixFree lead := by
  intro connector connector'
  cases connector <;> cases connector' <;> decide

/-- No column begins with another. -/
theorem prefixFree_column : PrefixFree Field.column := by
  intro field field'
  cases field <;> cases field' <;> decide

/-- No text between a column and its placeholders begins with another. -/
theorem prefixFree_before : PrefixFree Operator.before := by
  intro operator operator'
  cases operator <;> cases operator' <;> decide

/-- The first line of a statement tells its limit. -/
theorem selectLine_injective : Function.Injective selectLine := by
  -- the shorter line is the one without a limit
  have hother (limit : UInt32) : selectLine none ≠ selectLine (some limit) := by
    intro h
    have hlength := congrArg (fun line => line.toList.length) h
    simp [selectLine] at hlength
  intro limit limit' h
  cases limit with
  | none =>
      cases limit' with
      | none => rfl
      | some limit' => exact absurd h (hother limit')
  | some limit =>
      cases limit' with
      | none => exact absurd h.symm (hother limit)
      | some limit' =>
          have hlists := congrArg String.toList h
          rw [selectLine, selectLine, String.toList_append, String.toList_append] at hlists
          have hdecimal := String.toList_inj.mp (List.append_cancel_left hlists)
          rw [UInt32.toNat_inj.mp (decimal_injective hdecimal)]

/-! ### Conditions found again -/

/-- What the line of a condition tells about it: everything but the texts and the connector. -/
theorem conditionLine?_inj {connector connector' : Connector} {number : Nat}
    {condition condition' : Condition} {line : String}
    (h : conditionLine? connector number condition = some line)
    (h' : conditionLine? connector' number condition' = some line) :
    connector = connector' ∧ condition.field = condition'.field ∧
      condition.operator = condition'.operator ∧
      condition.operand.values.length = condition'.operand.values.length := by
  have hcount := (mentions_conditionLine? h).count_eq
  rw [(mentions_conditionLine? h').count_eq] at hcount
  obtain ⟨-, hline⟩ := conditionLine?_eq_some_iff.mp h
  obtain ⟨-, hline'⟩ := conditionLine?_eq_some_iff.mp h'
  rw [hline] at hline'
  simp only [String.append_assoc] at hline'
  obtain ⟨hconnector, hrest⟩ := prefixFree_lead.append_inj hline'
  obtain ⟨hfield, hrest⟩ := prefixFree_column.append_inj hrest
  obtain ⟨hoperator, -⟩ := prefixFree_before.append_inj hrest
  refine ⟨hconnector, hfield, hoperator, ?_⟩
  simpa [textNames] using hcount.symm

/-- The operator tells a single text from a list of one. -/
theorem operand_of_suited {condition : Condition} (h : condition.Suited) :
    condition.operand =
      if condition.operator.takesList then .list condition.operand.values
      else .single (condition.operand.values.headD "") := by
  obtain ⟨field, operator, operand, connector⟩ := condition
  cases operand with
  | single value =>
      have hsingle : operator ∈ [Operator.equals, .notEquals, .like, .notLike] := h
      revert hsingle
      cases operator <;> simp [Operator.takesList, Operand.values]
  | list values =>
      obtain ⟨hlist, -⟩ : operator ∈ [Operator.oneOf, .noneOf] ∧ values ≠ [] := h
      revert hlist
      cases operator <;> simp [Operator.takesList, Operand.values]

/-- Conditions with the same lines and the same texts are the same, up to the connector of the
last. -/
theorem conditionLines?_inj {connector connector' : Option Connector} {number : Nat}
    {conditions conditions' : List Condition} {lines : List String}
    (h : conditionLines? connector number conditions = some lines)
    (h' : conditionLines? connector' number conditions' = some lines)
    (hvalues : conditions.flatMap (·.operand.values) = conditions'.flatMap (·.operand.values)) :
    unjoinLast conditions = unjoinLast conditions' ∧ (conditions ≠ [] → connector = connector') := by
  induction conditions generalizing connector connector' number conditions' lines with
  | nil =>
      obtain rfl : [] = lines := Option.some.inj h
      obtain rfl : conditions' = [] := List.length_eq_zero_iff.mp (length_of_conditionLines? h').symm
      simp
  | cons condition conditions ih =>
      obtain ⟨word, line, rest, rfl, hline, hrest, rfl⟩ := conditionLines?_cons_eq_some_iff.mp h
      cases conditions' with
      | nil => simp [conditionLines?] at h'
      | cons condition' conditions' =>
          obtain ⟨word', line', rest', rfl, hline', hrest', hsame⟩ :=
            conditionLines?_cons_eq_some_iff.mp h'
          obtain ⟨rfl, rfl⟩ := List.cons.inj hsame
          obtain ⟨rfl, hfield, hoperator, hlength⟩ := conditionLine?_inj hline hline'
          rw [List.flatMap_cons, List.flatMap_cons] at hvalues
          -- The line fixes how many texts the first condition has, and so where its texts end.
          obtain ⟨hfirst, hothers⟩ := List.append_inj hvalues hlength
          have hoperand : condition.operand = condition'.operand := by
            rw [operand_of_suited (conditionLine?_eq_some_iff.mp hline).1,
              operand_of_suited (conditionLine?_eq_some_iff.mp hline').1, hoperator, hfirst]
          rw [← hlength] at hrest'
          obtain ⟨hconditions, hconnector⟩ := ih hrest hrest' hothers
          obtain ⟨field, operator, operand, connector⟩ := condition
          obtain ⟨field', operator', operand', connector'⟩ := condition'
          obtain ⟨rfl, rfl, rfl⟩ : field = field' ∧ operator = operator' ∧ operand = operand' :=
            ⟨hfield, hoperator, hoperand⟩
          exact ⟨unjoinLast_cons_congr hconditions hconnector, fun _ => rfl⟩

/-- Queries with the same lines have the same limit, and their conditions the same lines. -/
theorem statementLines?_inj {query query' : Query} {lines : List String}
    (h : statementLines? query = some lines) (h' : statementLines? query' = some lines) :
    query.limit = query'.limit ∧
      ∃ rest, conditionLines? (some .and) 1 query.conditions = some rest ∧
        conditionLines? (some .and) 1 query'.conditions = some rest := by
  obtain ⟨rest, hrest, rfl⟩ := Option.map_eq_some_iff.mp h
  obtain ⟨rest', hrest', hsame⟩ := Option.map_eq_some_iff.mp h'
  rw [List.append_cancel_right_eq, List.cons_append, List.cons_append, List.cons.injEq,
    List.append_cancel_left_eq, List.cons.injEq] at hsame
  obtain ⟨hlimit, -, rfl⟩ := hsame
  exact ⟨selectLine_injective hlimit.symm, rest', hrest, hrest'⟩

/-- The values of a statement are the ends of the range and the texts of the conditions. -/
theorem map_value_of_query (query : Query) :
    (rangeParameters query.range ++ textParameters 1 query.bindings).map Parameter.value =
      .moment query.range.first :: .moment query.range.last ::
        (query.conditions.flatMap (·.operand.values)).map .text := by
  rw [List.map_append, map_value_textParameters, query.map_snd_bindings]
  rfl

/-- Two queries whose statements agree in text and parameters are the same up to the connector of
the last condition, and the same altogether if they have been read from tokens. -/
theorem statement_determines_query {lineEnding : LineEnding} {query query' : Query}
    {payload payload' : Payload} (h : generate lineEnding query = .ok payload)
    (h' : generate lineEnding query' = .ok payload') (hsql : payload.sql = payload'.sql)
    (hparameters : payload.parameters.map Parameter.binding =
      payload'.parameters.map Parameter.binding) :
    query.unjoinLast = query'.unjoinLast ∧
      ∀ tokens tokens', Query.ofTokens tokens = .ok query → Query.ofTokens tokens' = .ok query' →
        query = query' := by
  obtain ⟨lines, hlines, rfl⟩ := generate_eq_ok_iff.mp h
  obtain ⟨lines', hlines', rfl⟩ := generate_eq_ok_iff.mp h'
  obtain rfl := lineText_inj (singleLine_of_statementLines? hlines)
    (singleLine_of_statementLines? hlines') hsql
  obtain ⟨hlimit, rest, hrest, hrest'⟩ := statementLines?_inj hlines hlines'
  -- of the parameters the values suffice
  have hvalues := congrArg (List.map fun binding => binding.2.2) hparameters
  rw [List.map_map, List.map_map] at hvalues
  have hvalues : (rangeParameters query.range ++ textParameters 1 query.bindings).map
      Parameter.value = (rangeParameters query'.range ++ textParameters 1 query'.bindings).map
        Parameter.value := hvalues
  rw [map_value_of_query, map_value_of_query, List.cons.injEq, List.cons.injEq, Value.moment.injEq,
    Value.moment.injEq, List.map_inj_right (by simp)] at hvalues
  obtain ⟨hfirst, hlast, htexts⟩ := hvalues
  obtain ⟨hconditions, -⟩ := conditionLines?_inj hrest hrest' htexts
  have hsame : query.unjoinLast = query'.unjoinLast := by
    obtain ⟨⟨first, last⟩, limit, conditions⟩ := query
    obtain ⟨⟨first', last'⟩, limit', conditions'⟩ := query'
    obtain ⟨rfl, rfl, rfl⟩ : first = first' ∧ last = last' ∧ limit = limit' :=
      ⟨hfirst, hlast, hlimit⟩
    rw [Query.unjoinLast, Query.unjoinLast, hconditions]
  refine ⟨hsame, ?_⟩
  intro tokens tokens' htokens htokens'
  rw [← Query.unjoinLast_of_ofTokens htokens, hsame, Query.unjoinLast_of_ofTokens htokens']

/-- Two queries that differ in the connector of their last condition have the same statement, and
one statement of two sequences of tokens tells that they are read as the same query. -/
theorem statement_determines_query_of_two_spellings :
    ∃ (query query' read : Query) (payload payload' : Payload) (tokens tokens' : List Token),
      query ≠ query' ∧ generate .lf query = .ok payload ∧
      generate .lf query' = .ok payload' ∧ query.unjoinLast = query'.unjoinLast ∧
      tokens ≠ tokens' ∧ Query.ofTokens tokens = .ok query ∧ Query.ofTokens tokens' = .ok read ∧
      query = read := by
  let range : DateRange := ⟨⟨2016, 1, 1, 0, 0, 0, 0, by decide, by decide⟩,
    ⟨2016, 2, 1, 0, 0, 0, 0, by decide, by decide⟩⟩
  let query : Query := ⟨range, some 7, [⟨.application, .oneOf, .list ["a"], none⟩]⟩
  let query' : Query := ⟨range, some 7, [⟨.application, .oneOf, .list ["a"], some .or⟩]⟩
  let tokensWith (limit : String) : List Token := [⟨.matching, "match", ⟨0, 5⟩⟩,
    ⟨.field .application, "app", ⟨6, 9⟩⟩, ⟨.operator .oneOf, "in", ⟨10, 12⟩⟩,
    ⟨.opening, "(", ⟨13, 14⟩⟩, ⟨.text, "a", ⟨14, 17⟩⟩, ⟨.closing, ")", ⟨17, 18⟩⟩,
    ⟨.between, "between", ⟨19, 26⟩⟩, ⟨.dateTime, "2016-01-01 00:00:00", ⟨27, 46⟩⟩,
    ⟨.connector .and, "and", ⟨47, 50⟩⟩, ⟨.dateTime, "2016-02-01 00:00:00", ⟨51, 70⟩⟩,
    ⟨.limit, "limit", ⟨71, 76⟩⟩, ⟨.number, limit, ⟨77, 77 + limit.utf8ByteSize⟩⟩]
  have htokens : Query.ofTokens (tokensWith "7") = .ok query := by decide +kernel
  have htokens' : Query.ofTokens (tokensWith "007") = .ok query := by decide +kernel
  have hpayload := (@generate_eq_ok_iff .lf query _).mpr ⟨_, rfl, rfl⟩
  have hpayload' := (@generate_eq_ok_iff .lf query' _).mpr ⟨_, rfl, rfl⟩
  exact ⟨query, query', query, _, _, tokensWith "7", tokensWith "007", by decide, hpayload,
    hpayload', (statement_determines_query hpayload hpayload' rfl rfl).1, by decide, htokens,
    htokens', (statement_determines_query hpayload hpayload rfl rfl).2 _ _ htokens htokens'⟩

end Sql

end ErrorQuery
