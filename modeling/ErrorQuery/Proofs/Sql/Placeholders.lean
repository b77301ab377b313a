import ErrorQuery.Proofs.Sql.Lines
import ErrorQuery.Proofs.Text.Numerals
import Mathlib.Data.List.Nodup
import Mathlib.Data.List.TakeWhile

/-!
# The placeholders in the text of a statement

Read from left to right, the text of a statement mentions its parameters one by one: `mentions`
finds every `@` that letters or digits follow, with all of them, and what it finds are the names of
the parameters, in order, none of them twice (`placeholders_are_bound_once`).

`Mentions` keeps the names of a text together with the count of its `@`.  Texts may be put one
behind the other where the second does not go on with a letter or a digit (`Mentions.append`), which
no line ending does, so that a statement is read line by line (`LinesMention`).
-/

set_option autoImplicit false

namespace ErrorQuery.Sql

open Text

/-! ### Reading placeholders -/

/-- The placeholders in a text from left to right: each is an `@` with all letters and digits that
follow it, one at least. -/
def mentions : List Char → List String
  | [] => []
  | c :: cs =>
      if c = '@' ∧ cs.takeWhile Char.isAlphanum ≠ [] then
        String.ofList (c :: cs.takeWhile Char.isAlphanum) :: mentions cs
      else mentions cs

/-- A text that does not begin with a letter or a digit adds to no placeholder in front of it. -/
theorem mentions_append (cs : List Char) {ds : List Char}
    (h : ∀ d ∈ ds.head?, d.isAlphanum = false) :
    mentions (cs ++ ds) = mentions cs ++ mentions ds := by
  have hstop : ds.takeWhile Char.isAlphanum = [] := by
    cases ds with
    | nil => rfl
    | cons d ds => rw [List.takeWhile_cons_of_neg (by simp [h d rfl])]
  induction cs with
  | nil => rfl
  | cons c cs ih =>
      have hsame : (cs ++ ds).takeWhile Char.isAlphanum = cs.takeWhile Char.isAlphanum := by
        rw [List.takeWhile_append, hstop, List.append_nil]
        split
        · next hall => rw [(List.takeWhile_prefix _).eq_of_length hall]
        · rfl
      rw [List.cons_append, mentions, mentions, hsame, ih]
      split
      · rfl
      · rfl

/-- The text mentions the names, and every `@` in it belongs to one of them. -/
structure Mentions (cs : List Char) (names : List String) : Prop where
  mentions_eq : mentions cs = names
  count_eq : cs.count '@' = names.length

namespace Mentions

/-- What is mentioned in a row is mentioned in order, if no name runs into what follows. -/
theorem append {cs ds : List Char} {names more : List String} (h : Mentions cs names)
    (h' : Mentions ds more) (hhead : ∀ d ∈ ds.head?, d.isAlphanum = false) :
    Mentions (cs ++ ds) (names ++ more) where
  mentions_eq := by rw [mentions_append cs hhead, h.mentions_eq, h'.mentions_eq]
  count_eq := by rw [List.count_append, h.count_eq, h'.count_eq, List.length_append]

/-- A text without an `@` adds nothing to what follows it. -/
theorem behind {cs ds : List Char} {names : List String} (h : '@' ∉ cs) (h' : Mentions ds names) :
    Mentions (cs ++ ds) names := by
  induction cs with
  | nil => exact h'
  | cons c cs ih =>
      obtain ⟨hc, hcs⟩ : '@' ≠ c ∧ '@' ∉ cs := by simpa using h
      have hrest := ih hcs
      constructor
      · rw [List.cons_append, mentions, if_neg (fun hmark => hc hmark.1.symm), hrest.mentions_eq]
      · rw [List.cons_append, List.count_cons_of_ne (Ne.symm hc), hrest.count_eq]

/-- Without the sign of a placeholder nothing is mentioned. -/
theorem free {cs : List Char} (h : '@' ∉ cs) : Mentions cs [] := by
  have hbehind : Mentions (cs ++ []) [] := .behind h ⟨rfl, rfl⟩
  rwa [List.append_nil] at hbehind

/-- A placeholder mentions itself. -/
theorem placeholder {cs : List Char} (hne : cs ≠ []) (h : ∀ c ∈ cs, c.isAlphanum = true) :
    Mentions ('@' :: cs) [String.ofList ('@' :: cs)] := by
  have hfree : '@' ∉ cs := by
    intro hmem
    have hmark := h '@' hmem
    revert hmark
    decide
  have hall : cs.takeWhile Char.isAlphanum = cs := List.takeWhile_eq_self_iff.mpr h
  constructor
  · rw [mentions, hall, if_pos ⟨rfl, hne⟩, (free hfree).mentions_eq]
  · rw [List.count_cons_self, (free hfree).count_eq]
    rfl

end Mentions

/-- The lines mention the names, line by line. -/
inductive LinesMention : List String → List String → Prop where
  | nil : LinesMention [] []
  | cons {line : String} {lines names more : List String} :
      Mentions line.toList names → LinesMention lines more →
      LinesMention (line :: lines) (names ++ more)

namespace LinesMention

/-- Lines in a row mention in order what each of them does. -/
theorem append {lines lines' names more : List String} (h : LinesMention lines names)
    (h' : LinesMention lines' more) : LinesMention (lines ++ lines') (names ++ more) := by
  induction h with
  | nil => exact h'
  | cons hline _ ih =>
      rw [List.cons_append, List.append_assoc]
      exact .cons hline ih

/-- Lines without the sign of a placeholder mention nothing. -/
theorem free {lines : List String} (h : ∀ line ∈ lines, '@' ∉ line.toList) :
    LinesMention lines [] := by
  induction lines with
  | nil => exact .nil
  | cons line lines ih =>
      obtain ⟨hline, hlines⟩ := List.forall_mem_cons.mp h
      exact .cons (.free hline) (ih hlines)

/-- No line goes on in the next one. -/
theorem lineText {lines names : List String} (h : LinesMention lines names)
    (lineEnding : LineEnding) : Mentions (Sql.lineText lineEnding.text lines).toList names := by
  have hfree : '@' ∉ lineEnding.text.toList := by
    cases lineEnding <;> decide
  have hhead (rest : List Char) :
      ∀ c ∈ (lineEnding.text.toList ++ rest).head?, c.isAlphanum = false := by
    cases lineEnding <;> simp [LineEnding.text]
  induction h with
  | nil =>
      rw [lineText_nil]
      exact .free (by decide)
  | cons hline _ ih =>
      rw [lineText_cons, String.toList_append, String.toList_append, List.append_assoc]
      exact hline.append (.behind hfree ih) (hhead _)

end LinesMention

/-! ### Names of parameters -/

/-- A number in decimal is made of digits. -/
theorem isAlphanum_decimal {number : Nat} {c : Char} (h : c ∈ (decimal number).toList) :
    c.isAlphanum = true := by
  rw [decimal, String.toList_ofList] at h
  have hdigit := Nat.isDigit_of_mem_toDigits (by decide) (by decide) h
  rw [Char.isAlphanum, hdigit, Bool.or_true]

/-- A placeholder mentions itself. -/
theorem mentions_textPlaceholder (number : Nat) :
    Mentions (textPlaceholder number).toList [textPlaceholder number] := by
  have hchars : (textPlaceholder number).toList =
      '@' :: ("Param".toList ++ (decimal number).toList) := by
    rw [textPlaceholder, String.toList_append]
    rfl
  have hmentions : Mentions (textPlaceholder number).toList
      [String.ofList (textPlaceholder number).toList] := by
    rw [hchars]
    apply Mentions.placeholder (by simp)
    intro c hc
    rcases List.mem_append.mp hc with hc | hc
    · have hall : "Param".toList.all Char.isAlphanum = true := by decide
      exact List.all_eq_true.mp hall c hc
    · exact isAlphanum_decimal hc
  rwa [String.ofList_toList] at hmentions

/-- The placeholder of a text tells its number. -/
theorem textPlaceholder_injective : Function.Injective textPlaceholder := by
  intro number number' h
  have hlists := congrArg String.toList h
  rw [textPlaceholder, textPlaceholder, String.toList_append, String.toList_append] at hlists
  exact decimal_injective (String.toList_inj.mp (List.append_cancel_left hlists))

/-- The names of as many texts as asked for, counted from `number`. -/
def textNames (number count : Nat) : List String :=
  (List.range' number count).map textPlaceholder

/-- Names in a row are numbered on. -/
theorem textNames_append (number count count' : Nat) :
    textNames number count ++ textNames (number + count) count' =
      textNames number (count + count') := by
  rw [textNames, textNames, textNames, ← List.map_append, ← List.range'_append_1]

/-- The parameters of texts have the names with their numbers. -/
theorem map_name_textParameters (number : Nat) (bindings : List (Field × String)) :
    (textParameters number bindings).map Parameter.name = textNames number bindings.length := by
  induction bindings generalizing number with
  | nil => rfl
  | cons binding bindings ih =>
      rw [textParameters, List.map_cons, ih, textNames, textNames, List.length_cons,
        List.range'_succ, List.map_cons]
      rfl

/-! ### The lines of a statement -/

/-- Placeholders with commas between them mention each of their names once, in order. -/
theorem mentions_placeholders (number count : Nat) :
    Mentions (placeholders number count).toList (textNames number count) := by
  fun_induction placeholders number count with
  | case1 => exact .free (by decide)
  | case2 number => exact mentions_textPlaceholder number
  | case3 number count ih =>
      have hcomma : Mentions (",".toList ++ (placeholders (number + 1) (count + 1)).toList)
          (textNames (number + 1) (count + 1)) := .behind (by decide) ih
      have hboth := (mentions_textPlaceholder number).append hcomma (by simp)
      simp only [String.toList_append, List.append_assoc]
      exact hboth

/-- The line of a condition mentions the placeholders of its texts. -/
theorem mentions_conditionLine? {connector : Connector} {number : Nat} {condition : Condition}
    {line : String} (h : conditionLine? connector number condition = some line) :
    Mentions line.toList (textNames number condition.operand.values.length) := by
  obtain ⟨-, rfl⟩ := conditionLine?_eq_some_iff.mp h
  have hlead : '@' ∉ (lead connector).toList := by
    cases connector <;> decide
  have hcolumn : '@' ∉ condition.field.column.toList := by
    cases condition.field <;> decide
  have hbefore : '@' ∉ condition.operator.before.toList := by
    cases condition.operator <;> decide
  have hafter : '@' ∉ condition.operator.after.toList := by
    cases condition.operator <;> decide
  have hhead : ∀ c ∈ condition.operator.after.toList.head?, c.isAlphanum = false := by
    cases condition.operator <;> simp [Operator.after]
  have hfront := Mentions.behind hbefore
    ((mentions_placeholders number condition.operand.values.length).append (.free hafter) hhead)
  have hline := Mentions.behind hlead (.behind hcolumn hfront)
  rw [List.append_nil] at hline
  simpa only [String.toList_append, List.append_assoc] using hline

/-- The lines of conditions mention the placeholders of all their texts. -/
theorem linesMention_conditionLines? {connector : Option Connector} {number : Nat}
    {conditions : List Condition} {lines : List String}
    (h : conditionLines? connector number conditions = some lines) :
    LinesMention lines (textNames number (conditions.flatMap Condition.bindings).length) := by
  induction conditions generalizing connector number lines with
  | nil =>
      obtain rfl : [] = lines := Option.some.inj h
      exact .nil
  | cons condition conditions ih =>
      obtain ⟨word, line, rest, -, hline, hrest, rfl⟩ := conditionLines?_cons_eq_some_iff.mp h
      have hlength : condition.bindings.length = condition.operand.values.length := by
        simp [Condition.bindings]
      rw [List.flatMap_cons, List.length_append, hlength, ← textNames_append]
      exact .cons (mentions_conditionLine? hline) (ih hrest)

/-- The line that bounds the date mentions both ends of the range. -/
theorem mentions_rangeLine :
    Mentions rangeLine.toList [Bound.first.placeholder, Bound.last.placeholder] := by
  constructor
  · decide +kernel
  · decide +kernel

/-- The first line of a statement mentions nothing. -/
theorem free_selectLine (limit : Option UInt32) : '@' ∉ (selectLine limit).toList := by
  cases limit with
  | none => decide
  | some limit =>
      rw [selectLine, String.toList_append, List.mem_append]
      rintro (hmem | hmem)
      · revert hmem
        decide
      · have hmark := isAlphanum_decimal hmem
        revert hmark
        decide

/-- The lines of a statement mention the two ends of the date range and all texts. -/
theorem linesMention_statementLines? {query : Query} {lines : List String}
    (h : statementLines? query = some lines) :
    LinesMention lines ([Bound.first.placeholder, Bound.last.placeholder] ++
      textNames 1 query.bindings.length) := by
  obtain ⟨conditions, hconditions, rfl⟩ := Option.map_eq_some_iff.mp h
  have hhead : LinesMention (selectLine query.limit :: projection) [] := by
    apply LinesMention.free
    rw [List.forall_mem_cons]
    exact ⟨free_selectLine query.limit, by decide +kernel⟩
  have hgrouping : LinesMention grouping [] := LinesMention.free (by decide +kernel)
  have hrange : LinesMention (rangeLine :: conditions) _ :=
    .cons mentions_rangeLine (linesMention_conditionLines? hconditions)
  have hlines := (hhead.append hrange).append hgrouping
  rw [List.append_nil] at hlines
  exact hlines

/-- No end of the date range has the name of a text. -/
theorem placeholder_ne_textPlaceholder (bound : Bound) (number : Nat) :
    bound.placeholder ≠ textPlaceholder number := by
  intro h
  have hlists := congrArg (·.toList.take 2) h
  rw [textPlaceholder, String.toList_append] at hlists
  cases bound <;> simp [Bound.placeholder] at hlists

/-- The names of the parameters are all different. -/
theorem nodup_names (count : Nat) :
    ([Bound.first.placeholder, Bound.last.placeholder] ++ textNames 1 count).Nodup := by
  rw [List.nodup_append]
  refine ⟨by decide, List.Nodup.map textPlaceholder_injective List.nodup_range', ?_⟩
  intro name hname other hmem
  obtain ⟨number, -, rfl⟩ := List.mem_map.mp hmem
  simp only [List.mem_cons, List.not_mem_nil, or_false] at hname
  rcases hname with rfl | rfl
  · exact placeholder_ne_textPlaceholder .first number
  · exact placeholder_ne_textPlaceholder .last number

/-- The placeholders in the text of a statement are the names of its parameters, in order; no two
parameters have the same name, and no other `@` stands in the text. -/
theorem placeholders_are_bound_once {lineEnding : LineEnding} {query : Query} {payload : Payload}
    (h : generate lineEnding query = .ok payload) :
    mentions payload.sql.toList = payload.names ∧ payload.names.Nodup ∧
      payload.sql.toList.count '@' = payload.names.length := by
  obtain ⟨lines, hlines, rfl⟩ := generate_eq_ok_iff.mp h
  have hmentions := (linesMention_statementLines? hlines).lineText lineEnding
  have hnames :
      (rangeParameters query.range ++ textParameters 1 query.bindings).map Parameter.name =
        [Bound.first.placeholder, Bound.last.placeholder] ++ textNames 1 query.bindings.length := by
    rw [List.map_append, map_name_textParameters]
    rfl
  rw [Payload.names, hnames]
  exact ⟨hmentions.mentions_eq, nodup_names _, hmentions.count_eq⟩

/-- Ten texts that look like a placeholder themselves are bound to ten placeholders, the last of
which begins like the first. -/
theorem placeholders_are_bound_once_for_ten_texts :
    ∃ (query : Query) (payload : Payload),
      query.conditions = [⟨.application, .oneOf, .list (List.replicate 10 "@Param1"), none⟩] ∧
      generate .crlf query = .ok payload ∧
      payload.names = ["@FromDate", "@ToDate", "@Param1", "@Param2", "@Param3", "@Param4",
        "@Param5", "@Param6", "@Param7", "@Param8", "@Param9", "@Param10"] ∧
      mentions payload.sql.toList = payload.names ∧ payload.names.Nodup ∧
      payload.sql.toList.count '@' = payload.names.length := by
  let query : Query :=
    ⟨⟨⟨2016, 1, 1, 0, 0, 0, 0, by decide, by decide⟩,
      ⟨2016, 2, 1, 0, 0, 0, 0, by decide, by decide⟩⟩, none,
      [⟨.application, .oneOf, .list (List.replicate 10 "@Param1"), none⟩]⟩
  have hgenerate : ∃ payload, generate .crlf query = .ok payload ∧
      payload.names = ["@FromDate", "@ToDate", "@Param1", "@Param2", "@Param3", "@Param4",
        "@Param5", "@Param6", "@Param7", "@Param8", "@Param9", "@Param10"] :=
    ⟨_, rfl, by decide +kernel⟩
  obtain ⟨payload, hpayload, hnames⟩ := hgenerate
  exact ⟨query, payload, rfl, hpayload, hnames, placeholders_are_bound_once hpayload⟩

end ErrorQuery.Sql
