import ErrorQuery.Proofs.Sql.Counting
import Mathlib.Data.List.Induction

/-!
# What a payload keeps of its history

A payload is built by operations, in any order and number.  Each adds to the text and to the
parameters and takes nothing away (`perform_eq`).  What the parameters are after a run is read off
the operations: the texts are numbered in the order in which they came, and each end of the date
range is bound by the first operation that asks for it (`Records`).  One operation keeps this up
(`Records.perform`), so a run does (`records_run`), and all that is said about the parameters of a
payload follows from it (`parameters_record_operations`).

A payload with a counter of 32 bits makes the same of every run that binds fewer texts than the
counter can count (`counting_run`).
-/

set_option autoImplicit false

namespace ErrorQuery.Sql

open Text

/-! ### Operations and runs -/

/-- An operation on a payload. -/
inductive Operation where
  | append (text : String)
  | appendLine (text : String)
  | newLine
  | appendColumn (field : Field)
  | bindOperand (field : Field) (operand : Operand)
  | bindMoment (bound : Bound) (t : DateTime)

/-- Whether a type is that of a text. -/
def SqlType.isVarChar : SqlType → Bool
  | .varChar _ => true
  | .dateTime => false

namespace Operation

/-- The texts that an operation passes in, each with its field. -/
def bindings : Operation → List (Field × String)
  | .bindOperand field operand => operand.values.map (field, ·)
  | _ => []

/-- The moment that an operation asks to bind to the given end of the date range. -/
def request? (bound : Bound) : Operation → Option DateTime
  | .bindMoment other t => if other = bound then some t else none
  | _ => none

end Operation

namespace Payload

/-- Performs an operation. -/
def perform (p : Payload) : Operation → Payload
  | .append text => p.append text
  | .appendLine text => p.appendLine text
  | .newLine => p.newLine
  | .appendColumn field => p.appendColumn field
  | .bindOperand field operand => p.bindOperand field operand
  | .bindMoment bound t => p.bindMoment bound t

/-- The payload that operations make of an empty one. -/
def run (lineEnding : String) (operations : List Operation) : Payload :=
  operations.foldl perform (empty lineEnding)

/-- The last operation of a run is performed on what those before it have made. -/
theorem run_concat (lineEnding : String) (operations : List Operation) (operation : Operation) :
    run lineEnding (operations ++ [operation]) = (run lineEnding operations).perform operation := by
  rw [run, List.foldl_append]
  rfl

end Payload

namespace CountingPayload

/-- Performs an operation. -/
def perform (p : CountingPayload) : Operation → CountingPayload
  | .append text => p.append text
  | .appendLine text => p.appendLine text
  | .newLine => p.newLine
  | .appendColumn field => p.appendColumn field
  | .bindOperand field operand => p.bindOperand field operand
  | .bindMoment bound t => p.bindMoment bound t

/-- The counting payload that operations make of an empty one. -/
def run (lineEnding : String) (operations : List Operation) : CountingPayload :=
  operations.foldl perform (empty lineEnding)

/-- The last operation of a run is performed on what those before it have made. -/
theorem run_concat (lineEnding : String) (operations : List Operation) (operation : Operation) :
    run lineEnding (operations ++ [operation]) = (run lineEnding operations).perform operation := by
  rw [run, List.foldl_append]
  rfl

end CountingPayload

namespace Payload

/-- An operation does the same to a payload with a counter, as long as it can count the texts. -/
theorem counting_perform {p : Payload} {operation : Operation}
    (h : p.boundCount + operation.bindings.length < 4294967296) :
    (p.perform operation).counting = p.counting.perform operation := by
  cases operation with
  | bindOperand field operand =>
      rw [Operation.bindings, List.length_map] at h
      exact counting_bindOperand h field
  | bindMoment bound t => exact counting_bindMoment p bound t
  | _ => rfl

/-- The parameters that an operation adds. -/
def added (p : Payload) : Operation → List Parameter
  | .bindOperand field operand => textParameters p.nextNumber (operand.values.map (field, ·))
  | .bindMoment bound t =>
      if p.parameters.any (Parameter.isBound bound) then [] else [.moment bound t]
  | _ => []

/-- An operation adds to the text and to the parameters. -/
theorem perform_eq (p : Payload) (operation : Operation) :
    ∃ text, p.perform operation =
      ⟨p.lineEnding, p.sql ++ text, p.parameters ++ p.added operation⟩ := by
  cases operation with
  | append text => exact ⟨text, by simp [perform, append, added]⟩
  | appendLine text =>
      exact ⟨text ++ p.lineEnding, by simp [perform, appendLine, newLine, append, added,
        String.append_assoc]⟩
  | newLine => exact ⟨p.lineEnding, by simp [perform, newLine, append, added]⟩
  | appendColumn field => exact ⟨field.column, by simp [perform, appendColumn, append, added]⟩
  | bindOperand field operand => exact ⟨_, bindTexts_eq p field operand.values⟩
  | bindMoment bound t =>
      refine ⟨bound.placeholder, ?_⟩
      cases hany : p.parameters.any (Parameter.isBound bound) with
      | false =>
          simp only [added, hany, Bool.false_eq_true, if_false]
          exact bindMoment_of_unbound hany t
      | true => simp [perform, bindMoment, added, hany, append]

end Payload

/-! ### Parameters by kind -/

/-- The parameters of texts are texts. -/
theorem filter_isText_textParameters (number : Nat) (bindings : List (Field × String)) :
    (textParameters number bindings).filter Parameter.isText = textParameters number bindings := by
  induction bindings generalizing number with
  | nil => rfl
  | cons binding bindings ih => rw [textParameters, List.filter_cons_of_pos rfl, ih]

/-- No parameter of a text is an end of the date range. -/
theorem filter_isBound_textParameters (bound : Bound) (number : Nat)
    (bindings : List (Field × String)) :
    (textParameters number bindings).filter (Parameter.isBound bound) = [] := by
  induction bindings generalizing number with
  | nil => rfl
  | cons binding bindings ih =>
      rw [textParameters, List.filter_cons_of_neg (by simp [Parameter.isBound]), ih]

namespace Parameter

/-- The parameters are the two ends of the date range and the texts. -/
theorem perm_by_kind (parameters : List Parameter) :
    (parameters.filter (isBound .first) ++ parameters.filter (isBound .last) ++
      parameters.filter isText).Perm parameters := by
  induction parameters with
  | nil => exact .nil
  | cons parameter parameters ih =>
      cases parameter with
      | moment bound t =>
          cases bound with
          | first => exact ih.cons _
          | last =>
              apply List.Perm.trans _ (ih.cons _)
              exact List.perm_middle.append_right _
      | text number width s => exact List.perm_middle.trans (ih.cons _)

end Parameter

namespace Payload

/-- An operation adds the texts that it passes in, numbered behind those before them. -/
theorem filter_isText_added (p : Payload) (operation : Operation) :
    (p.added operation).filter Parameter.isText =
      textParameters p.nextNumber operation.bindings := by
  cases operation with
  | bindOperand field operand => exact filter_isText_textParameters _ _
  | bindMoment bound t =>
      rw [added]
      split <;> rfl
  | _ => rfl

/-- An operation adds an end of the date range only if it asks for it and it is not bound yet. -/
theorem filter_isBound_added (p : Payload) (operation : Operation) (bound : Bound) :
    (p.added operation).filter (Parameter.isBound bound) =
      if p.parameters.any (Parameter.isBound bound) then []
      else ((operation.request? bound).map (Parameter.moment bound)).toList := by
  cases operation with
  | bindOperand field operand =>
      simp [added, filter_isBound_textParameters, Operation.request?]
  | bindMoment other t =>
      by_cases hother : other = bound
      · subst hother
        simp only [added, Operation.request?, if_true]
        split <;> simp [Parameter.isBound]
      · have hadded : (p.added (.bindMoment other t)).filter (Parameter.isBound bound) = [] := by
          rw [added]
          split <;> simp [Parameter.isBound, hother]
        simp [hadded, Operation.request?, hother]
  | _ => simp [added, Operation.request?]

end Payload

/-! ### The record of a run -/

/-- The parameters of a payload as they follow from operations. -/
structure Records (p : Payload) (operations : List Operation) : Prop where
  texts : p.parameters.filter Parameter.isText =
    textParameters 1 (operations.flatMap Operation.bindings)
  moments (bound : Bound) : p.parameters.filter (Parameter.isBound bound) =
    ((operations.findSome? (Operation.request? bound)).map (Parameter.moment bound)).toList

namespace Records

variable {p : Payload} {operations : List Operation}

/-- As many texts are bound as have come. -/
theorem boundCount (h : Records p operations) :
    p.boundCount = (operations.flatMap Operation.bindings).length := by
  have hcount := congrArg (List.countP Parameter.isText) h.texts
  rw [countP_isText_textParameters, List.countP_filter] at hcount
  simp only [Bool.and_self] at hcount
  exact hcount

/-- The next text is numbered behind those that have come. -/
theorem nextNumber (h : Records p operations) :
    p.nextNumber = 1 + (operations.flatMap Operation.bindings).length := by
  rw [← h.boundCount, Nat.add_comm]
  rfl

/-- An end of the date range is bound if some operation has asked for it. -/
theorem any_isBound (h : Records p operations) (bound : Bound) :
    p.parameters.any (Parameter.isBound bound) =
      (operations.findSome? (Operation.request? bound)).isSome := by
  have hany : p.parameters.any (Parameter.isBound bound) = true ↔
      p.parameters.filter (Parameter.isBound bound) ≠ [] := by
    simp [List.filter_eq_nil_iff]
  rw [Bool.eq_iff_iff, hany, h.moments]
  cases operations.findSome? (Operation.request? bound) <;> simp

/-- One operation keeps up the record. -/
theorem perform (h : Records p operations) (operation : Operation) :
    Records (p.perform operation) (operations ++ [operation]) := by
  obtain ⟨text, hperform⟩ := p.perform_eq operation
  rw [hperform]
  constructor
  · rw [List.filter_append, h.texts, Payload.filter_isText_added, h.nextNumber,
      List.flatMap_append, List.flatMap_singleton, textParameters_append]
  · intro bound
    rw [List.filter_append, h.moments, Payload.filter_isBound_added, h.any_isBound,
      List.findSome?_append]
    -- a request counts only if it is the first
    cases operations.findSome? (Operation.request? bound) <;> simp

end Records

/-- A run keeps up the record. -/
theorem records_run (lineEnding : String) (operations : List Operation) :
    Records (Payload.run lineEnding operations) operations := by
  induction operations using List.reverseRecOn with
  | nil => exact ⟨rfl, fun bound => rfl⟩
  | append_singleton operations operation ih =>
      rw [Payload.run_concat]
      exact ih.perform operation

/-- A run makes the same of a payload with a counter, as long as it can count the texts. -/
theorem counting_run (lineEnding : String) {operations : List Operation}
    (h : (operations.flatMap Operation.bindings).length < 4294967296) :
    CountingPayload.run lineEnding operations = (Payload.run lineEnding operations).counting := by
  induction operations using List.reverseRecOn with
  | nil => rfl
  | append_singleton operations operation ih =>
      rw [List.flatMap_append, List.length_append, List.flatMap_singleton] at h
      have hcount := (records_run lineEnding operations).boundCount
      rw [CountingPayload.run_concat, Payload.run_concat, ih (by omega),
        Payload.counting_perform (by omega)]

/-- The parameters with a name, by type and value. -/
def Payload.boundTo (p : Payload) (name : String) : List (SqlType × Value) :=
  (p.parameters.filter fun parameter => parameter.name = name).map fun parameter =>
    (parameter.type, parameter.value)

namespace Records

variable {p : Payload} {operations : List Operation}

/-- The texts are named by their numbers, counted from 1. -/
theorem map_name_texts (h : Records p operations) :
    (p.parameters.filter Parameter.isText).map Parameter.name =
      textNames 1 (operations.flatMap Operation.bindings).length := by
  rw [h.texts, map_name_textParameters]

/-- An end of the date range has its name alone, with the value that was asked for first. -/
theorem boundTo_placeholder (h : Records p operations) (bound : Bound) :
    p.boundTo bound.placeholder =
      (operations.findSome? (Operation.request? bound)).toList.map fun t =>
        (.dateTime, .moment t) := by
  have hfilter : p.parameters.filter (fun parameter => parameter.name = bound.placeholder) =
      p.parameters.filter (Parameter.isBound bound) := by
    simp only [Parameter.name_eq_placeholder_iff, Bool.decide_eq_true]
  rw [Payload.boundTo, hfilter, h.moments]
  cases operations.findSome? (Operation.request? bound) <;> rfl

/-- No two parameters have the same name. -/
theorem nodup_names (h : Records p operations) : p.names.Nodup := by
  have hperm := (Parameter.perm_by_kind p.parameters).map Parameter.name
  rw [Payload.names, ← hperm.nodup_iff, List.map_append, List.map_append, h.map_name_texts]
  apply List.Nodup.sublist _ (Sql.nodup_names (operations.flatMap Operation.bindings).length)
  apply List.Sublist.append_right
  have hends (bound : Bound) : List.Sublist
      ((p.parameters.filter (Parameter.isBound bound)).map Parameter.name) [bound.placeholder] := by
    rw [h.moments]
    cases operations.findSome? (Operation.request? bound) with
    | none => exact List.nil_sublist _
    | some t => exact List.Sublist.refl _
  exact (hends .first).append (hends .last)

end Records

/-- What holds after every run of operations: the text and the parameters only grow, no two
parameters have the same name, the texts are numbered as they came, as many as there were, and each
end of the date range is bound once if it was asked for, with the value of the first request.  A
payload with a counter of 32 bits ends up with the same text, parameters and count if there are
fewer texts than it can count. -/
theorem parameters_record_operations (lineEnding : String) (operations : List Operation) :
    (∀ operation,
      (Payload.run lineEnding operations).sql.toList <+:
        (Payload.run lineEnding (operations ++ [operation])).sql.toList ∧
      (Payload.run lineEnding operations).parameters <+:
        (Payload.run lineEnding (operations ++ [operation])).parameters) ∧
    (Payload.run lineEnding operations).names.Nodup ∧
    ((Payload.run lineEnding operations).parameters.filter (·.type.isVarChar)).map Parameter.name =
      (List.range' 1 (operations.flatMap Operation.bindings).length).map ("@Param" ++ decimal ·) ∧
    ((Payload.run lineEnding operations).parameters.filter (·.type.isVarChar)).length =
      (operations.flatMap Operation.bindings).length ∧
    (Payload.run lineEnding operations).boundTo "@FromDate" =
      (operations.findSome? (Operation.request? .first)).toList.map
        (fun t => (.dateTime, .moment t)) ∧
    (Payload.run lineEnding operations).boundTo "@ToDate" =
      (operations.findSome? (Operation.request? .last)).toList.map
        (fun t => (.dateTime, .moment t)) ∧
    ((operations.flatMap Operation.bindings).length < 4294967296 →
      CountingPayload.run lineEnding operations = (Payload.run lineEnding operations).counting ∧
      (CountingPayload.run lineEnding operations).counter.toNat =
        (operations.flatMap Operation.bindings).length) := by
  have hrecords := records_run lineEnding operations
  have htexts : (Payload.run lineEnding operations).parameters.filter (·.type.isVarChar) =
      (Payload.run lineEnding operations).parameters.filter Parameter.isText := by
    congr 1
    funext parameter
    cases parameter <;> rfl
  have hnames := hrecords.map_name_texts
  refine ⟨?_, hrecords.nodup_names, ?_, ?_, hrecords.boundTo_placeholder .first,
    hrecords.boundTo_placeholder .last, ?_⟩
  · intro operation
    obtain ⟨text, hperform⟩ := (Payload.run lineEnding operations).perform_eq operation
    rw [Payload.run_concat, hperform, String.toList_append]
    exact ⟨List.prefix_append _ _, List.prefix_append _ _⟩
  · rw [htexts, hnames]
    rfl
  · rw [htexts, ← List.length_map Parameter.name, hnames, textNames, List.length_map,
      List.length_range']
  · intro hcount
    have hrun := counting_run lineEnding hcount
    refine ⟨hrun, ?_⟩
    rw [hrun, Payload.counting, hrecords.boundCount]
    exact UInt32.toNat_ofNat_of_lt' hcount

/-- A second request and an empty list bind nothing, and nothing but texts is counted. -/
theorem parameters_record_operations_of_second_request :
    ∃ (t u : DateTime) (operations : List Operation),
      operations = [.bindOperand .message (.single "a"), .bindMoment .first t, .append " ",
        .bindMoment .first u, .bindOperand .message (.list []),
        .bindOperand .fingerprint (.list ["b", "c"])] ∧
      t ≠ u ∧ (operations.flatMap Operation.bindings).length < 4294967296 ∧
      CountingPayload.run "\n" operations =
        ⟨"\n", "@Param1@FromDate @FromDate@Param2,@Param3",
          [⟨"@Param1", .varChar 1000, .text "a"⟩, ⟨"@FromDate", .dateTime, .moment t⟩,
            ⟨"@Param2", .varChar 32, .text "b"⟩, ⟨"@Param3", .varChar 32, .text "c"⟩], 3⟩ := by
  let t : DateTime := ⟨2016, 1, 1, 0, 0, 0, 0, by decide, by decide⟩
  let u : DateTime := ⟨2016, 2, 1, 0, 0, 0, 0, by decide, by decide⟩
  let operations : List Operation := [.bindOperand .message (.single "a"), .bindMoment .first t,
    .append " ", .bindMoment .first u, .bindOperand .message (.list []),
    .bindOperand .fingerprint (.list ["b", "c"])]
  have hcount : (operations.flatMap Operation.bindings).length < 4294967296 := by decide
  refine ⟨t, u, operations, rfl, by decide, hcount, ?_⟩
  obtain ⟨-, -, -, -, -, -, hcounting⟩ := parameters_record_operations "\n" operations
  rw [(hcounting hcount).1]
  decide +kernel

end ErrorQuery.Sql
