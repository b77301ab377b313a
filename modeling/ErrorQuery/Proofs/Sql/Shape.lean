import ErrorQuery.Proofs.Sql.Placeholders
import ErrorQuery.Proofs.Sql.SearchCondition

/-!
# The shape of a statement

A statement is a list of lines, each with its ending, and no line contains a character of a line
ending (`singleLine_of_statementLines?`).  So the lines can be told from the text
(`lineText_inj`), and a text with the longer line ending is one with the shorter in which every line
feed has a carriage return in front of it (`lineText_crlf`).

All lines but those of the conditions are fixed up to the limit.  The line of the condition with the
number `i` begins with the word in front of it (`leading?`) and numbers its placeholders behind those
of the conditions before it, whose texts `textCount` counts (`getElem?_conditionLines?`).
-/

set_option autoImplicit false

namespace ErrorQuery.Sql

open Text

/-! ### Lines and line endings -/

/-- A text without a character of a line ending. -/
def SingleLine (text : String) : Prop :=
  '\r' ∉ text.toList ∧ '\n' ∉ text.toList

instance (text : String) : Decidable (SingleLine text) :=
  inferInstanceAs (Decidable (_ ∧ _))

/-- A text with a carriage return in front of every line feed. -/
def withReturns (text : String) : String :=
  String.ofList (text.toList.flatMap fun c => if c = '\n' then ['\r', '\n'] else [c])

/-- Texts in a row are in one line if each of them is. -/
@[simp] theorem singleLine_append {text more : String} :
    SingleLine (text ++ more) ↔ SingleLine text ∧ SingleLine more := by
  simp only [SingleLine, String.toList_append, List.mem_append, not_or]
  constructor
  · rintro ⟨⟨h₁, h₂⟩, h₃, h₄⟩
    exact ⟨⟨h₁, h₃⟩, h₂, h₄⟩
  · rintro ⟨⟨h₁, h₃⟩, h₂, h₄⟩
    exact ⟨⟨h₁, h₂⟩, h₃, h₄⟩

/-- Carriage returns are put into texts in a row one by one. -/
theorem withReturns_append (text more : String) :
    withReturns (text ++ more) = withReturns text ++ withReturns more := by
  rw [withReturns, String.toList_append, List.flatMap_append, String.ofList_append]
  rfl

/-- A single line gets no carriage return. -/
theorem withReturns_of_singleLine {text : String} (h : SingleLine text) :
    withReturns text = text := by
  have hsame : text.toList.flatMap (fun c => if c = '\n' then ['\r', '\n'] else [c]) =
      text.toList.flatMap fun c => [c] := by
    apply List.flatMap_congr
    intro c hc
    rw [if_neg]
    rintro rfl
    exact h.2 hc
  rw [withReturns, hsame, List.flatMap_singleton', String.ofList_toList]

/-- The text of lines with the longer ending is that with the shorter, with carriage returns. -/
theorem lineText_crlf {lines : List String} (h : ∀ line ∈ lines, SingleLine line) :
    lineText LineEnding.crlf.text lines = withReturns (lineText LineEnding.lf.text lines) := by
  induction lines with
  | nil => rfl
  | cons line lines ih =>
      obtain ⟨hline, hlines⟩ := List.forall_mem_cons.mp h
      have hending : withReturns LineEnding.lf.text = LineEnding.crlf.text := by decide
      rw [lineText_cons, lineText_cons, withReturns_append, withReturns_append, hending,
        withReturns_of_singleLine hline, ih hlines]

/-- The lines of a text are determined by it. -/
theorem lineText_inj {lineEnding : LineEnding} {lines lines' : List String}
    (h : ∀ line ∈ lines, SingleLine line) (h' : ∀ line ∈ lines', SingleLine line)
    (heq : lineText lineEnding.text lines = lineText lineEnding.text lines') : lines = lines' := by
  -- a line goes up to the first character of its ending
  obtain ⟨c, ending, hending, hc⟩ : ∃ c ending, lineEnding.text.toList = c :: ending ∧
      ∀ line, SingleLine line → c ∉ line.toList := by
    cases lineEnding with
    | lf => exact ⟨'\n', [], by decide, fun line hline => hline.2⟩
    | crlf => exact ⟨'\r', ['\n'], by decide, fun line hline => hline.1⟩
  have hfirst {line : String} (hline : SingleLine line) (rest : List Char) :
      (line.toList ++ c :: rest).takeWhile (· != c) = line.toList := by
    rw [List.takeWhile_append_of_pos, List.takeWhile_cons_of_neg (by simp), List.append_nil]
    intro d hd
    rw [bne_iff_ne]
    rintro rfl
    exact hc line hline hd
  have hne (line : String) (lines : List String) : lineText lineEnding.text (line :: lines) ≠ "" := by
    intro hempty
    have hlist := congrArg String.toList hempty
    simp [hending] at hlist
  induction lines generalizing lines' with
  | nil =>
      cases lines' with
      | nil => rfl
      | cons line' lines' => exact absurd heq.symm (hne line' lines')
  | cons line lines ih =>
      cases lines' with
      | nil => exact absurd heq (hne line lines)
      | cons line' lines' =>
          obtain ⟨hline, hlines⟩ := List.forall_mem_cons.mp h
          obtain ⟨hline', hlines'⟩ := List.forall_mem_cons.mp h'
          have hlists := congrArg String.toList heq
          simp only [lineText_cons, String.toList_append, hending, List.append_assoc,
            List.cons_append] at hlists
          have hsame := congrArg (List.takeWhile (· != c)) hlists
          rw [hfirst hline, hfirst hline'] at hsame
          obtain rfl : line = line' := String.toList_inj.mp hsame
          have hrest := List.append_cancel_left (List.cons.inj (List.append_cancel_left hlists)).2
          rw [ih hlines hlines' (String.toList_inj.mp hrest)]

/-! ### No line is broken -/

/-- A number does not break a line. -/
theorem singleLine_decimal (number : Nat) : SingleLine (decimal number) := by
  have hfree (c : Char) (hc : isAsciiDigit c = false) : c ∉ (decimal number).toList := by
    intro hmem
    rw [(isNumeral_decimal number).digits c hmem] at hc
    contradiction
  exact ⟨hfree '\r' (by decide), hfree '\n' (by decide)⟩

/-- A placeholder does not break a line. -/
theorem singleLine_textPlaceholder (number : Nat) : SingleLine (textPlaceholder number) := by
  rw [textPlaceholder, singleLine_append]
  exact ⟨by decide, singleLine_decimal number⟩

/-- A list of placeholders does not break a line. -/
theorem singleLine_placeholders (number count : Nat) : SingleLine (placeholders number count) := by
  fun_induction placeholders number count with
  | case1 => decide
  | case2 number => exact singleLine_textPlaceholder number
  | case3 number count ih =>
      rw [singleLine_append, singleLine_append]
      exact ⟨⟨singleLine_textPlaceholder number, by decide⟩, ih⟩

/-- The first line of a statement is not broken. -/
theorem singleLine_selectLine (limit : Option UInt32) : SingleLine (selectLine limit) := by
  cases limit with
  | none => decide
  | some limit =>
      rw [selectLine, singleLine_append]
      exact ⟨by decide, singleLine_decimal limit.toNat⟩

/-- The line of a condition is not broken. -/
theorem singleLine_of_conditionLine? {connector : Connector} {number : Nat} {condition : Condition}
    {line : String} (h : conditionLine? connector number condition = some line) :
    SingleLine line := by
  obtain ⟨-, rfl⟩ := conditionLine?_eq_some_iff.mp h
  simp only [singleLine_append]
  refine ⟨⟨⟨⟨?_, ?_⟩, ?_⟩, singleLine_placeholders number _⟩, ?_⟩
  · cases connector <;> decide
  · cases condition.field <;> decide
  · cases condition.operator <;> decide
  · cases condition.operator <;> decide

/-! ### The lines of conditions -/

/-- How many texts conditions have. -/
def textCount (conditions : List Condition) : Nat :=
  (conditions.flatMap (·.operand.values)).length

/-- The word in front of the condition with the given number, counted from 0: that stored with the
condition before it, and `first` for the first. -/
def leading? (first : Option Connector) (conditions : List Condition) : Nat → Option Connector
  | 0 => first
  | i + 1 => conditions[i]?.bind Condition.connector

/-- Behind the first condition its connector leads. -/
theorem leading?_cons_succ (first : Option Connector) (condition : Condition)
    (conditions : List Condition) (i : Nat) :
    leading? first (condition :: conditions) (i + 1) = leading? condition.connector conditions i := by
  cases i <;> rfl

/-- Each condition has one line. -/
theorem length_of_conditionLines? {connector : Option Connector} {number : Nat}
    {conditions : List Condition} {lines : List String}
    (h : conditionLines? connector number conditions = some lines) :
    lines.length = conditions.length := by
  induction conditions generalizing connector number lines with
  | nil =>
      obtain rfl : [] = lines := Option.some.inj h
      rfl
  | cons condition conditions ih =>
      obtain ⟨-, line, rest, -, -, hrest, rfl⟩ := conditionLines?_cons_eq_some_iff.mp h
      rw [List.length_cons, List.length_cons, ih hrest]

/-- The lines of conditions are not broken. -/
theorem singleLine_of_conditionLines? {connector : Option Connector} {number : Nat}
    {conditions : List Condition} {lines : List String}
    (h : conditionLines? connector number conditions = some lines) :
    ∀ line ∈ lines, SingleLine line := by
  induction conditions generalizing connector number lines with
  | nil =>
      obtain rfl : [] = lines := Option.some.inj h
      simp
  | cons condition conditions ih =>
      obtain ⟨word, line, rest, -, hline, hrest, rfl⟩ := conditionLines?_cons_eq_some_iff.mp h
      rw [List.forall_mem_cons]
      exact ⟨singleLine_of_conditionLine? hline, ih hrest⟩

/-- The line of each condition: it begins with the word in front of it and goes on counting the
placeholders of the conditions before it. -/
theorem getElem?_conditionLines? {connector : Option Connector} {number : Nat}
    {conditions : List Condition} {lines : List String}
    (h : conditionLines? connector number conditions = some lines) {i : Nat} {condition : Condition}
    (hi : conditions[i]? = some condition) :
    ∃ word line, leading? connector conditions i = some word ∧ lines[i]? = some line ∧
      conditionLine? word (number + textCount (conditions.take i)) condition = some line := by
  induction conditions generalizing connector number lines i with
  | nil => simp at hi
  | cons head conditions ih =>
      obtain ⟨word, line, rest, hword, hline, hrest, rfl⟩ := conditionLines?_cons_eq_some_iff.mp h
      cases i with
      | zero =>
          obtain rfl : head = condition := Option.some.inj hi
          exact ⟨word, line, hword, rfl, hline⟩
      | succ i =>
          obtain ⟨word', line', hword', hline', hcondition⟩ := ih hrest hi
          refine ⟨word', line', ?_, hline', ?_⟩
          · rw [leading?_cons_succ, hword']
          · rw [List.take_succ_cons, textCount, List.flatMap_cons, List.length_append,
              ← Nat.add_assoc]
            exact hcondition

/-- The lines of a statement are not broken. -/
theorem singleLine_of_statementLines? {query : Query} {lines : List String}
    (h : statementLines? query = some lines) : ∀ line ∈ lines, SingleLine line := by
  obtain ⟨conditions, hconditions, rfl⟩ := Option.map_eq_some_iff.mp h
  have hfixed : ∀ line ∈ projection ++ rangeLine :: grouping, SingleLine line := by
    decide +kernel
  intro line hline
  simp only [List.mem_append, List.mem_cons] at hline hfixed
  rcases hline with ((rfl | hline) | rfl | hline) | hline
  · exact singleLine_selectLine query.limit
  · exact hfixed line (.inl hline)
  · exact hfixed _ (.inr (.inl rfl))
  · exact singleLine_of_conditionLines? hconditions line hline
  · exact hfixed line (.inr (.inr hline))

/-- Placeholders are their names with commas between them. -/
theorem placeholders_eq_intercalate (number count : Nat) :
    placeholders number count = String.intercalate "," (textNames number count) := by
  fun_induction placeholders number count with
  | case1 => rfl
  | case2 number => exact String.intercalate_singleton.symm
  | case3 number count ih =>
      rw [ih]
      simp only [textNames, List.range'_succ, List.map_cons, String.intercalate_cons_cons]

/-- The text of a statement, line by line. -/
theorem statement_is_written_in_lines {lineEnding : LineEnding} {query : Query} {payload : Payload}
    (h : generate lineEnding query = .ok payload) :
    ∃ lines conditionLines : List String,
      payload.sql = String.join (lines.map (· ++ lineEnding.text)) ∧
      lines = (query.limit.elim "SELECT" fun limit => "SELECT TOP " ++ decimal limit.toNat) ::
        projection ++ "WHERE T.ErrorDateTime BETWEEN @FromDate AND @ToDate" ::
        conditionLines ++ grouping ∧
      projection.length = 9 ∧ conditionLines.length = query.conditions.length ∧
      grouping.length = 7 ∧ lines.length = 18 + query.conditions.length ∧
      (∀ line ∈ lines, '\r' ∉ line.toList ∧ '\n' ∉ line.toList) ∧
      (∀ i condition, query.conditions[i]? = some condition →
        ∃ connector, leading? (some .and) query.conditions i = some connector ∧
          conditionLines[i]? = some (connector.word ++ " " ++ condition.field.column ++
            condition.operator.before ++
            String.intercalate "," ((List.range' (textCount (query.conditions.take i) + 1)
              condition.operand.values.length).map fun k => "@Param" ++ decimal k) ++
            condition.operator.after)) ∧
      ∃ lf crlf, generate .lf query = .ok lf ∧ generate .crlf query = .ok crlf ∧
        crlf.sql = withReturns lf.sql ∧ crlf.parameters = lf.parameters := by
  obtain ⟨lines, hlines, rfl⟩ := generate_eq_ok_iff.mp h
  obtain ⟨conditionLines, hconditions, hwhole⟩ := Option.map_eq_some_iff.mp hlines
  have hsingle := singleLine_of_statementLines? hlines
  have hlength := length_of_conditionLines? hconditions
  have hgenerate (ending : LineEnding) :=
    (@generate_eq_ok_iff ending query _).mpr ⟨lines, hlines, rfl⟩
  have hlimit : (query.limit.elim "SELECT" fun limit => "SELECT TOP " ++ decimal limit.toNat) =
      selectLine query.limit := by
    cases query.limit <;> rfl
  have hrange : "WHERE T.ErrorDateTime BETWEEN @FromDate AND @ToDate" = rangeLine := by
    decide +kernel
  refine ⟨lines, conditionLines, rfl, ?_, rfl, hlength, rfl, ?_, hsingle, ?_, _, _, hgenerate .lf,
    hgenerate .crlf, lineText_crlf hsingle, rfl⟩
  · rw [hlimit, hrange, hwhole]
  · rw [← hwhole]
    simp only [List.length_append, List.length_cons, hlength, projection, grouping,
      List.length_nil]
    omega
  · intro i condition hi
    obtain ⟨connector, line, hconnector, hline, hcondition⟩ :=
      getElem?_conditionLines? hconditions hi
    obtain ⟨-, rfl⟩ := conditionLine?_eq_some_iff.mp hcondition
    have hlead : lead connector = connector.word ++ " " := by
      cases connector <;> rfl
    refine ⟨connector, hconnector, ?_⟩
    rw [hline, placeholders_eq_intercalate, hlead, Nat.add_comm 1]
    rfl

/-- The second of two conditions has the connector of the first in front of it, and its placeholder
is counted behind the two of the first. -/
theorem statement_is_written_in_lines_with_or :
    ∃ (query : Query) (payload : Payload),
      query.conditions = [⟨.application, .oneOf, .list ["a", "b"], some .or⟩,
        ⟨.message, .notLike, .single "c", none⟩] ∧
      generate .crlf query = .ok payload ∧
      payload.sql = String.join (["SELECT TOP 5",
        "        ED.FingerprintText",
        "        ,ED.ApplicationId",
        "        ,ED.OriginExceptionType",
        "        ,ED.OriginStackFrame",
        "        ,ED.LowestAppStackFrame",
        "        ,ED.HighestAppStackFrame",
        "        ,SUM(T.Frequency) AS TotalErrors",
        "FROM Timeline T",
        "JOIN ErrorDefinition AS ED ON T.Fingerprint = ED.Fingerprint",
        "WHERE T.ErrorDateTime BETWEEN @FromDate AND @ToDate",
        "AND ED.ApplicationId IN (@Param1,@Param2)",
        "OR T.MessageDetails NOT LIKE '%' + @Param3 + '%'",
        "GROUP BY ED.FingerprintText",
        "        ,ED.ApplicationId",
        "        ,ED.OriginExceptionType",
        "        ,ED.OriginStackFrame",
        "        ,ED.LowestAppStackFrame",
        "        ,ED.HighestAppStackFrame",
        "ORDER BY TotalErrors DESC"].map (· ++ "\r\n")) := by
  let query : Query := ⟨⟨⟨2016, 1, 1, 0, 0, 0, 0, by decide, by decide⟩,
    ⟨2016, 2, 1, 0, 0, 0, 0, by decide, by decide⟩⟩, some 5,
    [⟨.application, .oneOf, .list ["a", "b"], some .or⟩, ⟨.message, .notLike, .single "c", none⟩]⟩
  have hpayload := (@generate_eq_ok_iff .crlf query _).mpr ⟨_, rfl, rfl⟩
  obtain ⟨lines, conditionLines, hsql, hlines, -, hlength, -, -, -, hconditions, -⟩ :=
    statement_is_written_in_lines hpayload
  obtain ⟨first, hfirst, hfirstLine⟩ := hconditions 0 _ rfl
  obtain ⟨second, hsecond, hsecondLine⟩ := hconditions 1 _ rfl
  obtain rfl : Connector.and = first := Option.some.inj hfirst
  obtain rfl : Connector.or = second := Option.some.inj hsecond
  -- two lines, and each of them is known
  have hboth : conditionLines = ["AND ED.ApplicationId IN (@Param1,@Param2)",
      "OR T.MessageDetails NOT LIKE '%' + @Param3 + '%'"] := by
    obtain ⟨line, line', rfl⟩ := List.length_eq_two.mp hlength
    have hline := Option.some.inj hfirstLine
    have hline' := Option.some.inj hsecondLine
    rw [hline, hline']
    decide +kernel
  refine ⟨query, _, rfl, hpayload, ?_⟩
  rw [hsql, hlines, hboth]
  decide +kernel

end ErrorQuery.Sql
