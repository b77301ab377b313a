import ErrorQuery.Proofs.Query.WellFormed
import ErrorQuery.Sql.Statement

/-!
# The lines and the parameters of a statement

A statement is written step by step on a payload.  Here each step is given by what it adds to the
text and to the parameters, so that a whole statement is a list of lines (`statementLines?`) with
the two ends of the date range and the texts of the conditions as parameters
(`generate_eq_ok_iff`).  Neither the lines nor the numbers of the parameters depend on the texts.
-/

set_option autoImplicit false

namespace ErrorQuery

/-- The texts of a condition, each with the field that it is compared with. -/
def Condition.bindings (condition : Condition) : List (Field × String) :=
  condition.operand.values.map (condition.field, ·)

/-- The texts of a query in order, each with its field. -/
def Query.bindings (query : Query) : List (Field × String) :=
  query.conditions.flatMap Condition.bindings

/-- The texts of a query are those of its operands, in order. -/
theorem Query.map_snd_bindings (query : Query) :
    query.bindings.map Prod.snd = query.conditions.flatMap (·.operand.values) := by
  have hcondition (condition : Condition) :
      condition.bindings.map Prod.snd = condition.operand.values := by
    rw [Condition.bindings, List.map_map]
    exact List.map_id _
  simp only [Query.bindings, List.map_flatMap, hcondition]

namespace Operator

/-- What stands between the column of a comparison and its placeholders. -/
def before : Operator → String
  | .equals => " = "
  | .notEquals => " <> "
  | .like => " LIKE '%' + "
  | .notLike => " NOT LIKE '%' + "
  | .oneOf => " IN ("
  | .noneOf => " NOT IN ("

/-- What stands behind the placeholders of a comparison. -/
def after : Operator → String
  | .equals | .notEquals => ""
  | .like | .notLike => " + '%'"
  | .oneOf | .noneOf => ")"

end Operator

namespace Sql

/-! ### Texts and parameters -/

/-- As many placeholders as asked for, counted from `number`, with commas between them. -/
def placeholders (number : Nat) : Nat → String
  | 0 => ""
  | 1 => textPlaceholder number
  | count + 2 => textPlaceholder number ++ "," ++ placeholders (number + 1) (count + 1)

/-- The parameters of texts that are bound to the placeholders from `number` on. -/
def textParameters (number : Nat) : List (Field × String) → List Parameter
  | [] => []
  | (field, s) :: bindings => .text number field.width s :: textParameters (number + 1) bindings

/-- The parameters of a date range. -/
def rangeParameters (range : DateRange) : List Parameter :=
  [.moment .first range.first, .moment .last range.last]

/-- The line that bounds the date. -/
def rangeLine : String :=
  "WHERE T.ErrorDateTime BETWEEN " ++ Bound.first.placeholder ++ " AND " ++ Bound.last.placeholder

/-- The text of some lines, each with its ending. -/
def lineText (ending : String) (lines : List String) : String :=
  String.join (lines.map (· ++ ending))

/-- The line of a condition behind the given word, if there is one; its texts are bound to the
placeholders from `number` on. -/
def conditionLine? (connector : Connector) (number : Nat) (condition : Condition) :
    Option String :=
  (frame? condition.operator condition.operand).map fun (before, after) =>
    lead connector ++ condition.field.column ++ before ++
      placeholders number condition.operand.values.length ++ after

/-- The lines of conditions, if every condition has one and all but the last are joined to the
next. -/
def conditionLines? (connector : Option Connector) (number : Nat) :
    List Condition → Option (List String)
  | [] => some []
  | condition :: conditions =>
      connector.bind fun word =>
        (conditionLine? word number condition).bind fun line =>
          (conditionLines? condition.connector (number + condition.operand.values.length)
            conditions).map (line :: ·)

/-- The lines of the statement of a query, if it has one. -/
def statementLines? (query : Query) : Option (List String) :=
  (conditionLines? (some .and) 1 query.conditions).map fun lines =>
    selectLine query.limit :: projection ++ rangeLine :: lines ++ grouping

/-- Without lines there is no text. -/
@[simp] theorem lineText_nil (ending : String) : lineText ending [] = "" := by
  simp [lineText]

/-- The text of a line and its ending stands in front of the other lines. -/
@[simp] theorem lineText_cons (ending line : String) (lines : List String) :
    lineText ending (line :: lines) = line ++ ending ++ lineText ending lines := by
  simp [lineText]

/-- The text of lines in a row. -/
theorem lineText_append (ending : String) (lines more : List String) :
    lineText ending (lines ++ more) = lineText ending lines ++ lineText ending more := by
  simp [lineText]

/-- Further texts are numbered behind those before them. -/
theorem textParameters_append (number : Nat) (bindings more : List (Field × String)) :
    textParameters number (bindings ++ more) =
      textParameters number bindings ++ textParameters (number + bindings.length) more := by
  induction bindings generalizing number with
  | nil => rfl
  | cons binding bindings ih =>
      simp only [List.cons_append, textParameters, ih, List.length_cons]
      rw [show number + 1 + bindings.length = number + (bindings.length + 1) by omega]

/-- There are as many parameters as texts. -/
theorem countP_isText_textParameters (number : Nat) (bindings : List (Field × String)) :
    (textParameters number bindings).countP Parameter.isText = bindings.length := by
  induction bindings generalizing number with
  | nil => rfl
  | cons binding bindings ih =>
      rw [textParameters, List.countP_cons_of_pos rfl, ih, List.length_cons]

/-! ### What each step adds -/

namespace Payload

/-- Lines are added to the text, each with its ending. -/
theorem appendLines_eq (p : Payload) (lines : List String) :
    p.appendLines lines = ⟨p.lineEnding, p.sql ++ lineText p.lineEnding lines, p.parameters⟩ := by
  rw [appendLines]
  induction lines generalizing p with
  | nil => simp
  | cons line lines ih =>
      rw [List.foldl_cons, ih]
      simp [appendLine, newLine, append, String.append_assoc]

/-- The number of the next text after further texts have been bound. -/
theorem nextNumber_of_textParameters {p q : Payload} {bindings : List (Field × String)}
    (h : q.parameters = p.parameters ++ textParameters p.nextNumber bindings) :
    q.nextNumber = p.nextNumber + bindings.length := by
  rw [nextNumber, h, List.countP_append, countP_isText_textParameters, nextNumber]
  omega

/-- Texts are bound to the next numbers, and their placeholders are written with commas. -/
theorem bindTexts_eq (p : Payload) (field : Field) (values : List String) :
    p.bindTexts field values =
      ⟨p.lineEnding, p.sql ++ placeholders p.nextNumber values.length,
        p.parameters ++ textParameters p.nextNumber (values.map (field, ·))⟩ := by
  fun_induction bindTexts p field values with
  | case1 p => simp [placeholders, textParameters]
  | case2 p s => rfl
  | case3 p s t values ih =>
      have hnumber : ((p.bindText field s).append ",").nextNumber = p.nextNumber + 1 :=
        @nextNumber_of_textParameters p _ [(field, s)] rfl
      rw [ih, hnumber]
      simp [placeholders, textParameters, bindText, append, String.append_assoc]

/-- The line of a condition is added, and its texts are bound. -/
theorem appendCondition_eq_ok_iff {p next : Payload} {connector : Connector}
    {condition : Condition} :
    p.appendCondition connector condition = .ok next ↔
      ∃ line, conditionLine? connector p.nextNumber condition = some line ∧
        next = ⟨p.lineEnding, p.sql ++ (line ++ p.lineEnding),
          p.parameters ++ textParameters p.nextNumber condition.bindings⟩ := by
  rw [appendCondition, conditionLine?]
  cases frame? condition.operator condition.operand with
  | none => simp
  | some frame =>
      obtain ⟨before, after⟩ := frame
      have hnumber : (((p.append (lead connector)).appendColumn condition.field).append
          before).nextNumber = p.nextNumber := rfl
      simp only [bindOperand, bindTexts_eq, hnumber, Except.ok.injEq, Option.map_some,
        Option.some.injEq, exists_eq_left', Condition.bindings]
      simp only [append, appendColumn, newLine, String.append_assoc, eq_comm]

/-- The lines of conditions are added, and their texts are bound. -/
theorem appendConditions_eq_ok_iff {p final : Payload} {connector : Option Connector}
    {index : Nat} {conditions : List Condition} :
    p.appendConditions connector index conditions = .ok final ↔
      ∃ lines, conditionLines? connector p.nextNumber conditions = some lines ∧
        final = ⟨p.lineEnding, p.sql ++ lineText p.lineEnding lines,
          p.parameters ++
            textParameters p.nextNumber (conditions.flatMap Condition.bindings)⟩ := by
  induction conditions generalizing p connector index with
  | nil =>
      rw [appendConditions, conditionLines?, Except.ok.injEq, eq_comm]
      simp [textParameters]
  | cons condition conditions ih =>
      cases connector with
      | none => simp [appendConditions, conditionLines?]
      | some word =>
          rw [appendConditions, conditionLines?, Option.bind_some]
          cases hline : conditionLine? word p.nextNumber condition with
          | none =>
              cases hnext : p.appendCondition word condition with
              | error e => simp
              | ok next =>
                  obtain ⟨line, hsome, -⟩ := appendCondition_eq_ok_iff.mp hnext
                  rw [hline] at hsome
                  contradiction
          | some line =>
              -- the next condition counts on behind the texts of this one
              have hnext := appendCondition_eq_ok_iff.mpr ⟨line, hline, rfl⟩
              have hlength : condition.bindings.length = condition.operand.values.length := by
                simp [Condition.bindings]
              have hnumber := nextNumber_of_textParameters (p := p)
                (q := ⟨p.lineEnding, p.sql ++ (line ++ p.lineEnding),
                  p.parameters ++ textParameters p.nextNumber condition.bindings⟩) rfl
              rw [hlength] at hnumber
              simp only [hnext, ih, hnumber, Option.bind_some, Option.map_eq_some_iff,
                List.flatMap_cons, textParameters_append, hlength]
              constructor
              · rintro ⟨lines, hlines, rfl⟩
                refine ⟨line :: lines, ⟨lines, hlines, rfl⟩, ?_⟩
                simp [String.append_assoc]
              · rintro ⟨-, ⟨lines, hlines, rfl⟩, rfl⟩
                refine ⟨lines, hlines, ?_⟩
                simp [String.append_assoc]

/-- An end of the date range that is not bound yet is written and bound. -/
theorem bindMoment_of_unbound {p : Payload} {bound : Bound}
    (h : p.parameters.any (Parameter.isBound bound) = false) (t : DateTime) :
    p.bindMoment bound t =
      ⟨p.lineEnding, p.sql ++ bound.placeholder, p.parameters ++ [.moment bound t]⟩ := by
  rw [bindMoment, h, if_neg Bool.false_ne_true]
  rfl

/-- The line that bounds the date is added, and the two ends are bound. -/
theorem appendRange_eq {p : Payload} (h : p.parameters = []) (range : DateRange) :
    p.appendRange range =
      ⟨p.lineEnding, p.sql ++ (rangeLine ++ p.lineEnding), rangeParameters range⟩ := by
  unfold appendRange rangeLine
  -- the wording of the line does not matter
  generalize "WHERE T.ErrorDateTime BETWEEN " = before, " AND " = between
  have hfirst : (p.append before).parameters = [] := h
  have hunbound : (p.append before).parameters.any (Parameter.isBound .first) = false := by
    rw [hfirst, List.any_nil]
  rw [bindMoment_of_unbound hunbound, hfirst, bindMoment_of_unbound (by rfl)]
  simp only [append, newLine, rangeParameters, String.append_assoc, List.nil_append,
    List.singleton_append]

end Payload

/-- A query has a statement exactly if it has lines, and they make up its text. -/
theorem generate_eq_ok_iff {lineEnding : LineEnding} {query : Query} {payload : Payload} :
    generate lineEnding query = .ok payload ↔
      ∃ lines, statementLines? query = some lines ∧
        payload = ⟨lineEnding.text, lineText lineEnding.text lines,
          rangeParameters query.range ++ textParameters 1 query.bindings⟩ := by
  -- The part of the statement that no query changes but for its limit and its moments.
  have hhead : (((Payload.empty lineEnding.text).appendLine (selectLine query.limit)).appendLines
      projection).appendRange query.range =
        ⟨lineEnding.text,
          lineText lineEnding.text (selectLine query.limit :: projection ++ [rangeLine]),
          rangeParameters query.range⟩ := by
    rw [Payload.appendRange_eq, Payload.appendLines_eq]
    · simp only [Payload.appendLine, Payload.newLine, Payload.append, Payload.empty,
        lineText_append, lineText_cons, lineText_nil, String.append_assoc, String.empty_append,
        String.append_empty]
    · rw [Payload.appendLines_eq]
      rfl
  rw [generate, statementLines?]
  simp only [hhead]
  cases happend : Payload.appendConditions _ (some .and) 0 query.conditions with
  | error e =>
      simp only [reduceCtorEq, Option.map_eq_some_iff, false_iff]
      rintro ⟨-, ⟨lines, hlines, -⟩, -⟩
      rw [Payload.appendConditions_eq_ok_iff.mpr ⟨lines, hlines, rfl⟩] at happend
      contradiction
  | ok final =>
      obtain ⟨lines, hlines, rfl⟩ := Payload.appendConditions_eq_ok_iff.mp happend
      have hnumber : conditionLines? (some .and) 1 query.conditions = some lines := hlines
      simp only [hnumber, Option.map_some, Option.some.injEq, exists_eq_left', Except.ok.injEq,
        Payload.appendLines_eq]
      simp only [lineText_append, lineText_cons, lineText_nil, String.append_assoc,
        String.append_empty, Query.bindings]
      exact eq_comm

/-! ### When there are lines, and what they are -/

/-- A comparison is written exactly if its operand suits its operator, with the texts of the
operator around its placeholders. -/
theorem frame?_eq_some_iff {condition : Condition} {frame : String × String} :
    frame? condition.operator condition.operand = some frame ↔
      condition.Suited ∧ frame = (condition.operator.before, condition.operator.after) := by
  obtain ⟨field, operator, operand, connector⟩ := condition
  cases operand with
  | single value =>
      cases operator <;>
        simp [frame?, Condition.Suited, Operator.before, Operator.after, eq_comm]
  | list values =>
      cases values <;> cases operator <;>
        simp [frame?, Condition.Suited, Operator.before, Operator.after, eq_comm]

/-- The line of a condition that has one: the word in front of it, its column, and its placeholders
between the texts of its operator. -/
theorem conditionLine?_eq_some_iff {connector : Connector} {number : Nat} {condition : Condition}
    {line : String} :
    conditionLine? connector number condition = some line ↔
      condition.Suited ∧
        line = lead connector ++ condition.field.column ++ condition.operator.before ++
          placeholders number condition.operand.values.length ++ condition.operator.after := by
  rw [conditionLine?, Option.map_eq_some_iff]
  constructor
  · rintro ⟨frame, hframe, rfl⟩
    obtain ⟨hsuited, rfl⟩ := frame?_eq_some_iff.mp hframe
    exact ⟨hsuited, rfl⟩
  · rintro ⟨hsuited, rfl⟩
    exact ⟨_, frame?_eq_some_iff.mpr ⟨hsuited, rfl⟩, rfl⟩

/-- Lines of conditions begin with that of the first, which is joined to what stands before it. -/
theorem conditionLines?_cons_eq_some_iff {connector : Option Connector} {number : Nat}
    {condition : Condition} {conditions : List Condition} {lines : List String} :
    conditionLines? connector number (condition :: conditions) = some lines ↔
      ∃ word line rest, connector = some word ∧ conditionLine? word number condition = some line ∧
        conditionLines? condition.connector (number + condition.operand.values.length) conditions =
          some rest ∧ lines = line :: rest := by
  rw [conditionLines?]
  constructor
  · intro h
    obtain ⟨word, hword, h⟩ := Option.bind_eq_some_iff.mp h
    obtain ⟨line, hline, h⟩ := Option.bind_eq_some_iff.mp h
    obtain ⟨rest, hrest, rfl⟩ := Option.map_eq_some_iff.mp h
    exact ⟨word, line, rest, hword, hline, hrest, rfl⟩
  · rintro ⟨word, line, rest, rfl, hline, hrest, rfl⟩
    rw [Option.bind_some, hline, Option.bind_some, hrest, Option.map_some]

end Sql

end ErrorQuery
