import ErrorQuery.Proofs.Sql.Lines
import ErrorQuery.Proofs.Sql.SearchCondition
import ErrorQuery.Proofs.Text.Classes
import ErrorQuery.Proofs.Text.Numerals

/-!
# When the date range bounds the rows of a statement

The search condition of a statement is that on the date, followed by the conditions of the query in
a row, each with its connector in front of it (`searchCondition_of_lines`).  So its value for a row
is that of the chain behind the condition on the date (`admits_of_generate`).  Nothing keeps the
chain together: as `AND` binds tighter than `OR`, an `OR` ends the term that bounds the date, and
the range bounds the rows exactly if no condition is joined to the next by `OR`
(`range_bounds_iff`).
-/

set_option autoImplicit false

namespace ErrorQuery.Sql

open Text

/-! ### Words of a line -/

/-- No digit is blank. -/
theorem isBlank_of_isAsciiDigit {c : Char} (h : isAsciiDigit c = true) : isBlank c = false := by
  cases hblank : isBlank c with
  | false => rfl
  | true =>
      have hdigit := isDecimalDigit_of_isBlank hblank
      rw [isDecimalDigit_of_isAsciiDigit h] at hdigit
      contradiction

/-- The digits of a number divide no words. -/
theorem isWordCharacter_of_isAsciiDigit {c : Char} (h : isAsciiDigit c = true) :
    IsWordCharacter c := by
  refine ⟨isBlank_of_isAsciiDigit h, ?_, ?_⟩
  all_goals
    rintro rfl
    revert h
    decide

/-- The placeholder of a text is one word. -/
theorem isWordCharacter_of_mem_textPlaceholder {number : Nat} {c : Char}
    (hc : c ∈ (textPlaceholder number).toList) : IsWordCharacter c := by
  rw [textPlaceholder, String.toList_append, List.mem_append] at hc
  rcases hc with hc | hc
  · have hall : ("@Param".toList.all fun c => IsWordCharacter c) = true := by decide
    exact of_decide_eq_true (List.all_eq_true.mp hall c hc)
  · exact isWordCharacter_of_isAsciiDigit ((isNumeral_decimal number).digits c hc)

/-- Placeholders with commas between them are one word. -/
theorem isWordCharacter_of_mem_placeholders {number count : Nat} {c : Char}
    (hc : c ∈ (placeholders number count).toList) : IsWordCharacter c := by
  fun_induction placeholders number count with
  | case1 => simp at hc
  | case2 number => exact isWordCharacter_of_mem_textPlaceholder hc
  | case3 number count ih =>
      simp only [String.toList_append, List.mem_append] at hc
      rcases hc with (hc | hc) | hc
      · exact isWordCharacter_of_mem_textPlaceholder hc
      · have hall : (",".toList.all fun c => IsWordCharacter c) = true := by decide
        exact of_decide_eq_true (List.all_eq_true.mp hall c hc)
      · exact ih hc

/-- The sign of a placeholder stands in every list of placeholders but the empty one. -/
theorem mem_placeholders (number : Nat) {count : Nat} (h : count ≠ 0) :
    '@' ∈ (placeholders number count).toList := by
  have hfirst : '@' ∈ (textPlaceholder number).toList := by
    rw [textPlaceholder, String.toList_append]
    exact List.mem_append_left _ (by decide)
  unfold placeholders
  split
  · contradiction
  · exact hfirst
  · simp only [String.toList_append, List.append_assoc]
    exact List.mem_append_left _ hfirst

/-- A word with a placeholder in it divides nothing. -/
theorem plain_of_placeholder {body : List Char} (hsolid : ∀ c ∈ body, IsWordCharacter c)
    (hbody : '@' ∈ body) : Plain (wordsOf body) := by
  rw [wordsOf_solid (List.ne_nil_of_mem hbody) hsolid]
  apply plain_of_neutral
  intro word hword hneutral
  rw [List.mem_singleton.mp hword] at hneutral
  have hall : ∀ word ∈ "(" :: ")" :: reserved, '@' ∉ word.toList := by decide
  have hfree := hall _ hneutral
  rw [String.toList_ofList] at hfree
  exact hfree hbody

/-- A list of placeholders in parentheses divides nothing. -/
theorem plain_of_list {body : List Char} (h : Plain (wordsOf body)) :
    Plain (wordsOf ('(' :: (body ++ [')']))) := by
  have hempty : wordsOf [] = [] := by simp [wordsOf]
  have hwords : wordsOf ('(' :: (body ++ [')'])) = "(" :: (wordsOf body ++ [")"]) := by
    rw [← List.nil_append ('(' :: _), wordsOf_append_parenthesis (.inl rfl),
      wordsOf_append_parenthesis (.inr rfl), hempty]
    rfl
  rw [hwords]
  exact h.enclose

/-- A column, an operator and plain words are the words of a comparison. -/
theorem isComparison_of_column (field : Field) {operator body : List Char}
    (hoperator : Plain (wordsOf operator)) (hbody : Plain (wordsOf body)) :
    IsComparison (wordsOf (field.column.toList ++ ' ' :: (operator ++ ' ' :: body))) := by
  have hcolumn : wordsOf field.column.toList = [field.column] := by
    cases field <;> decide +kernel
  have hneutral : field.column ∉ "(" :: ")" :: reserved := by
    cases field <;> decide
  rw [wordsOf_append_blank isBlank_space, wordsOf_append_blank isBlank_space, hcolumn]
  refine ⟨?_, ?_⟩
  · apply Plain.append
    · apply plain_of_neutral
      simpa using hneutral
    · exact hoperator.append hbody
  · rw [List.singleton_append, enclosed?, if_neg]
    exact fun heq => hneutral (heq ▸ List.mem_cons_self)

/-- The words of a condition are those of a comparison. -/
theorem isComparison_of_frame? {operator : Operator} {operand : Operand} {before after : String}
    (h : frame? operator operand = some (before, after)) (field : Field) {body : List Char}
    (hbody : Plain (wordsOf body)) :
    IsComparison (wordsOf (field.column.toList ++ (before.toList ++ (body ++ after.toList)))) := by
  -- what stands in front of the placeholders, and what may be joined to them
  have hwords : ∀ operator ∈ ["=", "<>", "LIKE '%' +", "NOT LIKE '%' +", "IN", "NOT IN"],
      Plain (wordsOf operator.toList) := by
    have hneutral : ∀ operator ∈ ["=", "<>", "LIKE '%' +", "NOT LIKE '%' +", "IN", "NOT IN"],
        ∀ word ∈ wordsOf operator.toList, word ∉ "(" :: ")" :: reserved := by
      decide +kernel
    exact fun operator hoperator => plain_of_neutral (hneutral operator hoperator)
  have hlike : Plain (wordsOf (body ++ ' ' :: "+ '%'".toList)) := by
    rw [wordsOf_append_blank isBlank_space]
    exact hbody.append (plain_of_neutral (by decide +kernel))
  have hlist := plain_of_list hbody
  unfold frame? at h
  split at h <;> simp only [Option.some.injEq, Prod.mk.injEq, reduceCtorEq] at h
  · obtain ⟨rfl, rfl⟩ := h
    simpa using isComparison_of_column field (hwords "=" (by simp)) hbody
  · obtain ⟨rfl, rfl⟩ := h
    simpa using isComparison_of_column field (hwords "<>" (by simp)) hbody
  · obtain ⟨rfl, rfl⟩ := h
    simpa using isComparison_of_column field (hwords "LIKE '%' +" (by simp)) hlike
  · obtain ⟨rfl, rfl⟩ := h
    simpa using isComparison_of_column field (hwords "NOT LIKE '%' +" (by simp)) hlike
  · obtain ⟨rfl, rfl⟩ := h
    simpa using isComparison_of_column field (hwords "IN" (by simp)) hlist
  · obtain ⟨rfl, rfl⟩ := h
    simpa using isComparison_of_column field (hwords "NOT IN" (by simp)) hlist

/-- The word in front of a condition is its connector. -/
theorem words_lead (connector : Connector) (text : String) :
    words (lead connector ++ text) = connector.word :: words text := by
  have hlead : (lead connector).toList = connector.word.toList ++ [' '] := by
    cases connector <;> decide
  have hword : wordsOf connector.word.toList = [connector.word] := by
    cases connector <;> decide +kernel
  unfold words
  rw [String.toList_append, hlead, List.append_assoc, List.singleton_append,
    wordsOf_append_blank isBlank_space, hword, List.singleton_append]

/-- An operand that suits its operator has texts. -/
theorem values_ne_nil_of_frame? {operator : Operator} {operand : Operand}
    {frame : String × String} (h : frame? operator operand = some frame) :
    operand.values.length ≠ 0 := by
  unfold frame? at h
  split at h <;> simp_all [Operand.values]

/-- The line of a condition is its connector and the words of a comparison. -/
theorem words_conditionLine? {connector : Connector} {number : Nat} {condition : Condition}
    {line : String} (h : conditionLine? connector number condition = some line) :
    ∃ ws, words line = connector.word :: ws ∧ IsComparison ws := by
  unfold conditionLine? at h
  obtain ⟨⟨before, after⟩, hframe, rfl⟩ := Option.map_eq_some_iff.mp h
  have hplaceholders := mem_placeholders number (values_ne_nil_of_frame? hframe)
  have hbody := plain_of_placeholder (fun c hc => isWordCharacter_of_mem_placeholders hc)
    hplaceholders
  refine ⟨_, ?_, isComparison_of_frame? hframe condition.field hbody⟩
  simp only [String.append_assoc, words_lead]
  simp only [words, String.toList_append]

/-! ### Words of a statement -/

/-- The words of lines are those of each of them. -/
theorem words_lineText (lineEnding : LineEnding) (lines : List String) :
    words (lineText lineEnding.text lines) = lines.flatMap words := by
  have hempty : wordsOf [] = [] := by simp [wordsOf]
  induction lines with
  | nil => simp [words, hempty]
  | cons line lines ih =>
      rw [lineText_cons, List.flatMap_cons, ← ih]
      unfold words
      simp only [String.toList_append, List.append_assoc]
      cases lineEnding with
      | lf =>
          have hfeed : LineEnding.lf.text.toList = ['\n'] := by decide
          rw [hfeed, List.singleton_append, wordsOf_append_blank (by decide)]
      | crlf =>
          have hfeed : LineEnding.crlf.text.toList = ['\r', '\n'] := by decide
          have hline := @wordsOf_append_blank '\n' (by decide) []
            (lineText LineEnding.crlf.text lines).toList
          rw [List.nil_append, hempty, List.nil_append] at hline
          rw [hfeed, List.cons_append, List.singleton_append, wordsOf_append_blank (by decide),
            hline]

/-- The search condition does not begin in the first line. -/
theorem words_selectLine (limit : Option UInt32) : "WHERE" ∉ words (selectLine limit) := by
  cases limit with
  | none => decide +kernel
  | some limit =>
      have hline : (selectLine (some limit)).toList =
          "SELECT TOP".toList ++ ' ' :: (decimal limit.toNat).toList := by
        simp [selectLine]
      have hnumeral := isNumeral_decimal limit.toNat
      unfold words
      rw [hline, wordsOf_append_blank isBlank_space, List.mem_append, not_or]
      refine ⟨by decide +kernel, ?_⟩
      have hsolid : ∀ c ∈ (decimal limit.toNat).toList, IsWordCharacter c := fun c hc =>
        isWordCharacter_of_isAsciiDigit (hnumeral.digits c hc)
      rw [wordsOf_solid hnumeral.ne_nil hsolid, List.mem_singleton, String.ofList_toList]
      intro heq
      have hdigit := hnumeral.digits 'W' (by rw [← heq]; decide)
      revert hdigit
      decide

/-- The words that bound the date. -/
def rangeFactor : List String :=
  ["T.ErrorDateTime", "BETWEEN", Bound.first.placeholder, "AND", Bound.last.placeholder]

/-- The search condition bounds the date and goes on with the conditions in a row. -/
theorem searchCondition_of_lines {query : Query} {lines conditions : List String}
    (hlines : lines = selectLine query.limit :: projection ++ rangeLine :: conditions ++ grouping)
    (hgroup : "GROUP" ∉ conditions.flatMap words) (lineEnding : LineEnding) :
    searchCondition (lineText lineEnding.text lines) = rangeFactor ++ conditions.flatMap words := by
  have hhead : "WHERE" ∉ (selectLine query.limit :: projection).flatMap words := by
    rw [List.flatMap_cons, List.mem_append, not_or]
    exact ⟨words_selectLine query.limit, by decide +kernel⟩
  have hrange : words rangeLine = "WHERE" :: rangeFactor := by decide +kernel
  obtain ⟨rest, hgrouping⟩ : ∃ rest, grouping.flatMap words = "GROUP" :: rest := by
    have hfirst : words "GROUP BY ED.FingerprintText" = ["GROUP", "BY", "ED.FingerprintText"] := by
      decide +kernel
    refine ⟨["BY", "ED.FingerprintText"] ++ grouping.tail.flatMap words, ?_⟩
    rw [grouping, List.flatMap_cons, hfirst, List.tail_cons]
    rfl
  have hrangeGroup : "GROUP" ∉ rangeFactor := by decide
  have hwords : lines.flatMap words = (selectLine query.limit :: projection).flatMap words ++
      "WHERE" :: (rangeFactor ++ conditions.flatMap words ++ "GROUP" :: rest) := by
    simp [hlines, hrange, hgrouping]
  unfold searchCondition
  rw [words_lineText, hwords, List.dropWhile_append_of_pos]
  · rw [List.dropWhile_cons_of_neg (by simp), List.drop_one, List.tail_cons,
      List.takeWhile_append_of_pos]
    · simp
    · intro word hword
      have hne : word ≠ "GROUP" := by
        rintro rfl
        rcases List.mem_append.mp hword with hword | hword
        · exact hrangeGroup hword
        · exact hgroup hword
      simpa using hne
  · intro word hword
    have hne : word ≠ "WHERE" := by
      rintro rfl
      exact hhead hword
    simpa using hne

/-! ### The chain of conditions -/

/-- The lines of conditions are links of a chain: connectors and comparisons. -/
theorem exists_chain_of_conditionLines? {connector : Option Connector} {number : Nat}
    {conditions : List Condition} {lines : List String}
    (h : conditionLines? connector number conditions = some lines) :
    ∃ chain : List (Connector × List String),
      lines.flatMap words = chain.flatMap (fun link => link.1.word :: link.2) ∧
      (∀ link ∈ chain, IsComparison link.2) ∧
      chain.map (fun link => some link.1) =
        (connector :: conditions.map Condition.connector).dropLast := by
  induction conditions generalizing connector number lines with
  | nil =>
      obtain rfl : [] = lines := Option.some.inj h
      exact ⟨[], by simp⟩
  | cons condition conditions ih =>
      obtain ⟨word, line, rest, hword, hline, hlines, rfl⟩ :=
        conditionLines?_cons_eq_some_iff.mp h
      obtain ⟨ws, hws, hcomparison⟩ := words_conditionLine? hline
      obtain ⟨chain, hchain, hcomparisons, hconnectors⟩ := ih hlines
      refine ⟨(word, ws) :: chain, ?_, ?_, ?_⟩
      · rw [List.flatMap_cons, List.flatMap_cons, hws, hchain]
      · intro link hlink
        rcases List.mem_cons.mp hlink with rfl | hlink
        · exact hcomparison
        · exact hcomparisons link hlink
      · rw [List.map_cons, List.map_cons, hconnectors, hword, List.dropLast_cons_cons]

/-! ### Rows that a statement admits -/

/-- A row accepts the factor on the date if its date lies in the range. -/
theorem Row.accepts_rangeFactor (row : Row) (range : DateRange)
    (bindings : List (Field × String)) :
    row.accepts (rangeParameters range ++ textParameters 1 bindings) rangeFactor =
      decide (range.Contains row.errorDateTime) := by
  have hunenclosed : enclosed? rangeFactor = none := by decide
  have hfirst : momentOf? (rangeParameters range ++ textParameters 1 bindings)
      Bound.first.placeholder = some range.first := by
    simp [momentOf?, rangeParameters]
  have hlast : momentOf? (rangeParameters range ++ textParameters 1 bindings)
      Bound.last.placeholder = some range.last := by
    simp [momentOf?, rangeParameters, Bound.placeholder]
  rw [accepts, hunenclosed]
  simp only [meets, rangeFactor]
  rw [if_pos (by simp), hfirst, hlast, Option.any_some, Option.any_some, ← Bool.decide_and]
  rfl

/-- A statement admits a row if the chain of its conditions behind that on the date has the value
true; the first of them is joined to the date by `AND`. -/
theorem admits_of_generate {lineEnding : LineEnding} {query : Query} {payload : Payload}
    (h : generate lineEnding query = .ok payload) :
    ∃ chain : List (Connector × List String),
      chain.map (fun link => some link.1) =
        (some .and :: query.conditions.map Condition.connector).dropLast ∧
      ∀ row : Row, payload.admits row =
        chainValue (decide (query.range.Contains row.errorDateTime))
          (chain.map fun link => (link.1, row.holds link.2)) := by
  obtain ⟨lines, hlines, rfl⟩ := generate_eq_ok_iff.mp h
  obtain ⟨conditions, hconditions, rfl⟩ := Option.map_eq_some_iff.mp hlines
  obtain ⟨chain, hwords, hcomparison, hconnectors⟩ := exists_chain_of_conditionLines? hconditions
  have hplain : ∀ link ∈ chain, Plain link.2 := fun link hlink => (hcomparison link hlink).toPlain
  refine ⟨chain, hconnectors, ?_⟩
  intro row
  -- The search condition ends at the first `GROUP`, so none may stand among the conditions.
  have hgroup : "GROUP" ∉ conditions.flatMap words := by
    rw [hwords]
    intro hmem
    obtain ⟨link, hlink, hmem⟩ := List.mem_flatMap.mp hmem
    rcases List.mem_cons.mp hmem with hword | hword
    · revert hword
      cases link.1 <;> decide
    · exact (hplain link hlink).undivided _ hword (by decide)
  have hfactors : factors rangeFactor = [rangeFactor] := by decide
  have hlinks : chain.map (fun link => (link.1, row.accepts (rangeParameters query.range ++
      textParameters 1 query.bindings) link.2)) =
        chain.map fun link => (link.1, row.holds link.2) := by
    apply List.map_congr_left
    intro link hlink
    rw [row.accepts_of_isComparison _ (hcomparison link hlink)]
  unfold Payload.admits
  rw [searchCondition_of_lines rfl hgroup, hwords, row.satisfies_eq,
    value_of_chain _ (by decide) (by decide) hplain, hfactors, List.all_cons, List.all_nil,
    Bool.and_true, row.accepts_rangeFactor, hlinks]

/-- The links of a chain are joined by `AND` alone exactly if the conditions are. -/
theorem links_and_iff {chain : List (Connector × List String)} {conditions : List Condition}
    (h : chain.map (fun link => some link.1) =
      (some .and :: conditions.map Condition.connector).dropLast) :
    (∀ link ∈ chain, link.1 = .and) ↔
      ∀ condition ∈ conditions.dropLast, condition.connector = some .and := by
  have hlinks : (∀ link ∈ chain, link.1 = .and) ↔
      ∀ connector ∈ chain.map (fun link => some link.1), connector = some .and := by
    simp only [List.forall_mem_map, Option.some.injEq]
  rw [hlinks, h]
  cases conditions with
  | nil => simp
  | cons condition conditions =>
      rw [List.map_cons, List.dropLast_cons_cons, ← List.map_cons, ← List.map_dropLast,
        List.forall_mem_cons, List.forall_mem_map]
      exact and_iff_right rfl

/-- With an `OR` between conditions, a row that meets all of them is admitted whatever its date. -/
theorem admits_of_or {lineEnding : LineEnding} {query : Query} {payload : Payload}
    (h : generate lineEnding query = .ok payload)
    (hor : ¬ ∀ condition ∈ query.conditions.dropLast, condition.connector = some .and) {row : Row}
    (hrow : ∀ comparison, row.holds comparison = true) : payload.admits row = true := by
  obtain ⟨chain, hconnectors, hadmits⟩ := admits_of_generate h
  rw [hadmits]
  apply chainValue_of_or
  · rwa [List.forall_mem_map, links_and_iff hconnectors]
  · rw [List.forall_mem_map]
    intro link _
    exact hrow link.2

/-- The range bounds the rows of a statement exactly if no condition is joined to the next by `OR`,
unless it leaves out no moment at all. -/
theorem range_bounds_iff {lineEnding : LineEnding} {query : Query} {payload : Payload}
    (h : generate lineEnding query = .ok payload) :
    (∀ row : Row, payload.admits row = true → query.range.Contains row.errorDateTime) ↔
      (∀ condition ∈ query.conditions.dropLast, condition.connector = some .and) ∨
        ∀ t, query.range.Contains t := by
  constructor
  · intro hbounds
    by_cases hand : ∀ condition ∈ query.conditions.dropLast, condition.connector = some .and
    · exact .inl hand
    · right
      intro t
      apply hbounds ⟨t, fun _ => true⟩
      exact admits_of_or h hand fun _ => rfl
  · intro hbounded row hrow
    rcases hbounded with hand | hall
    · obtain ⟨chain, hconnectors, hadmits⟩ := admits_of_generate h
      rw [hadmits, chainValue_of_and, Bool.and_eq_true, decide_eq_true_eq] at hrow
      · exact hrow.1
      · rw [List.forall_mem_map]
        exact (links_and_iff hconnectors).mpr hand
    · exact hall row.errorDateTime

/-- Two conditions joined by `AND` are bounded by the range. -/
theorem range_bounds_two_joined_by_and :
    ∃ (query : Query) (payload : Payload),
      query.conditions = [⟨.application, .equals, .single "a", some .and⟩,
        ⟨.message, .equals, .single "b", none⟩] ∧
      generate .lf query = .ok payload ∧
      ∀ row : Row, payload.admits row = true → query.range.Contains row.errorDateTime := by
  let range : DateRange := ⟨⟨2016, 1, 1, 0, 0, 0, 0, by decide, by decide⟩,
    ⟨2016, 2, 1, 0, 0, 0, 0, by decide, by decide⟩⟩
  let conditions : List Condition := [⟨.application, .equals, .single "a", some .and⟩,
    ⟨.message, .equals, .single "b", none⟩]
  have hpayload := (@generate_eq_ok_iff .lf ⟨range, none, conditions⟩ _).mpr ⟨_, rfl, rfl⟩
  refine ⟨_, _, rfl, hpayload, ?_⟩
  rw [range_bounds_iff hpayload]
  left
  decide

/-- Of two conditions joined by `OR` the second admits rows from outside the range. -/
theorem range_does_not_bound_two_joined_by_or :
    ∃ (query : Query) (payload : Payload) (row : Row),
      query.conditions = [⟨.application, .equals, .single "a", some .or⟩,
        ⟨.message, .equals, .single "b", none⟩] ∧
      generate .lf query = .ok payload ∧
      payload.admits row = true ∧ ¬ query.range.Contains row.errorDateTime := by
  let range : DateRange := ⟨⟨2016, 1, 1, 0, 0, 0, 0, by decide, by decide⟩,
    ⟨2016, 2, 1, 0, 0, 0, 0, by decide, by decide⟩⟩
  let row : Row := ⟨⟨2017, 1, 1, 0, 0, 0, 0, by decide, by decide⟩, fun _ => true⟩
  let conditions : List Condition := [⟨.application, .equals, .single "a", some .or⟩,
    ⟨.message, .equals, .single "b", none⟩]
  have hpayload := (@generate_eq_ok_iff .lf ⟨range, none, conditions⟩ _).mpr ⟨_, rfl, rfl⟩
  refine ⟨_, _, row, rfl, hpayload, ?_, ?_⟩
  · exact admits_of_or hpayload (by decide) fun _ => rfl
  · decide

end ErrorQuery.Sql
