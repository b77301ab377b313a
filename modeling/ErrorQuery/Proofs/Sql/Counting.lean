import ErrorQuery.Proofs.Sql.Placeholders

/-!
# A payload with a counter

A payload can number its next text without looking through its parameters, if it counts the texts
that it has bound.  Such a payload keeps the count as a number of 32 bits and its parameters as
records of name, type and value, and finds out by the name whether an end of the date range is bound
(`CountingPayload`).

What a payload keeps is what the counting one keeps, read off its parameters (`Payload.counting`).
Every step on a payload is the step on the counting one, as long as the texts can be counted in 32
bits (`Payload.counting_bindOperand`, `Payload.counting_bindMoment`).
-/

set_option autoImplicit false

namespace ErrorQuery.Sql

/-! ### Payloads that count -/

/-- A parameter as a record. -/
structure NamedParameter where
  name : String
  type : SqlType
  value : Value
  deriving DecidableEq

/-- A payload that keeps how many texts it has bound. -/
structure CountingPayload where
  /-- What each line of the text ends in. -/
  lineEnding : String
  sql : String
  parameters : List NamedParameter
  counter : UInt32
  deriving DecidableEq

namespace CountingPayload

/-- A payload without text and parameters. -/
def empty (lineEnding : String) : CountingPayload :=
  ⟨lineEnding, "", [], 0⟩

/-- Writes a text. -/
def append (p : CountingPayload) (text : String) : CountingPayload :=
  { p with sql := p.sql ++ text }

/-- Ends the line. -/
def newLine (p : CountingPayload) : CountingPayload :=
  p.append p.lineEnding

/-- Writes a text and ends the line. -/
def appendLine (p : CountingPayload) (text : String) : CountingPayload :=
  (p.append text).newLine

/-- Writes the column of a field. -/
def appendColumn (p : CountingPayload) (field : Field) : CountingPayload :=
  p.append field.column

/-- Counts a text, and binds it to the placeholder of the count, which is written. -/
def bindText (p : CountingPayload) (field : Field) (s : String) : CountingPayload :=
  let number := p.counter + 1
  { p.append (textPlaceholder number.toNat) with
    parameters := p.parameters ++ [⟨textPlaceholder number.toNat, .varChar field.width, .text s⟩]
    counter := number }

/-- Binds an item of a list, behind a comma if it is not the first. -/
def bindItem (field : Field) (p : CountingPayload) (item : String × Nat) : CountingPayload :=
  if 0 < item.2 then (p.append ",").bindText field item.1 else p.bindText field item.1

/-- Binds the texts of an operand. -/
def bindOperand (p : CountingPayload) (field : Field) : Operand → CountingPayload
  | .single s => p.bindText field s
  | .list values => values.zipIdx.foldl (bindItem field) p

/-- Writes the placeholder of an end of the date range, and binds it if no parameter has its
name. -/
def bindMoment (p : CountingPayload) (bound : Bound) (t : DateTime) : CountingPayload :=
  let written := p.append bound.placeholder
  if p.parameters.any (·.name == bound.placeholder) then written
  else { written with
    parameters := p.parameters ++ [⟨bound.placeholder, .dateTime, .moment t⟩] }

end CountingPayload

/-! ### A payload and its count -/

namespace Parameter

/-- The record of a parameter. -/
def named (parameter : Parameter) : NamedParameter :=
  ⟨parameter.name, parameter.type, parameter.value⟩

/-- A parameter is an end of the date range if it has its name. -/
theorem name_eq_placeholder_iff {parameter : Parameter} {bound : Bound} :
    parameter.name = bound.placeholder ↔ parameter.isBound bound = true := by
  cases parameter with
  | moment other t => cases other <;> cases bound <;> simp [name, isBound, Bound.placeholder]
  | text number width s =>
      simp [name, isBound, (placeholder_ne_textPlaceholder bound number).symm]

end Parameter

namespace Payload

/-- How many texts are bound. -/
def boundCount (p : Payload) : Nat :=
  p.parameters.countP Parameter.isText

/-- The payload with its parameters as records and the count of its texts. -/
def counting (p : Payload) : CountingPayload :=
  ⟨p.lineEnding, p.sql, p.parameters.map Parameter.named, UInt32.ofNat p.boundCount⟩

/-- A bound text counts. -/
theorem boundCount_bindText (p : Payload) (field : Field) (s : String) :
    (p.bindText field s).boundCount = p.boundCount + 1 := by
  rw [boundCount, bindText, List.countP_append]
  rfl

/-- A text gets the same number from the counter. -/
theorem counting_bindText {p : Payload} (h : p.boundCount + 1 < 4294967296) (field : Field)
    (s : String) : (p.bindText field s).counting = p.counting.bindText field s := by
  have hcounter : UInt32.ofNat p.boundCount + 1 = UInt32.ofNat (p.boundCount + 1) :=
    (UInt32.ofNat_add p.boundCount 1).symm
  have hnumber : (UInt32.ofNat (p.boundCount + 1)).toNat = p.nextNumber :=
    UInt32.toNat_ofNat_of_lt' h
  rw [counting, boundCount_bindText, CountingPayload.bindText, counting, hcounter, hnumber]
  simp [bindText, append, CountingPayload.append, Parameter.named, Parameter.name, Parameter.type,
    Parameter.value]

/-- Texts are bound one by one with commas between them. -/
theorem counting_bindTexts {p : Payload} {s : String} {values : List String}
    (h : p.boundCount + (values.length + 1) < 4294967296) (field : Field) (index : Nat) :
    (p.bindTexts field (s :: values)).counting =
      (values.zipIdx (index + 1)).foldl (CountingPayload.bindItem field)
        (p.counting.bindText field s) := by
  induction values generalizing p s index with
  | nil => exact counting_bindText h field s
  | cons t values ih =>
      have hfirst : p.boundCount + 1 < 4294967296 := by
        rw [List.length_cons] at h
        omega
      have hrest : ((p.bindText field s).append ",").boundCount + (values.length + 1) <
          4294967296 := by
        show (p.bindText field s).boundCount + (values.length + 1) < 4294967296
        rw [boundCount_bindText]
        rw [List.length_cons] at h
        omega
      have hcomma : ((p.bindText field s).append ",").counting =
          (p.counting.bindText field s).append "," := by
        rw [← counting_bindText hfirst]
        rfl
      rw [bindTexts, ih hrest (index + 1), List.zipIdx_cons, List.foldl_cons, hcomma,
        CountingPayload.bindItem, if_pos (Nat.succ_pos index)]

/-- The texts of an operand get the same numbers from the counter. -/
theorem counting_bindOperand {p : Payload} {operand : Operand}
    (h : p.boundCount + operand.values.length < 4294967296) (field : Field) :
    (p.bindOperand field operand).counting = p.counting.bindOperand field operand := by
  cases operand with
  | single s => exact counting_bindText h field s
  | list values =>
      cases values with
      | nil => rfl
      | cons s values =>
          rw [CountingPayload.bindOperand, List.zipIdx_cons, List.foldl_cons,
            CountingPayload.bindItem, if_neg (Nat.lt_irrefl 0)]
          exact counting_bindTexts h field 0

/-- An end of the date range is found by its name. -/
theorem counting_bindMoment (p : Payload) (bound : Bound) (t : DateTime) :
    (p.bindMoment bound t).counting = p.counting.bindMoment bound t := by
  have hnames : p.counting.parameters.any (·.name == bound.placeholder) =
      p.parameters.any (Parameter.isBound bound) := by
    rw [counting, List.any_map]
    congr 1
    funext parameter
    rw [Bool.eq_iff_iff, ← Parameter.name_eq_placeholder_iff]
    exact beq_iff_eq
  rw [bindMoment, CountingPayload.bindMoment, hnames]
  cases p.parameters.any (Parameter.isBound bound) with
  | true => rfl
  | false =>
      -- the new parameter is no text
      simp [counting, boundCount, append, CountingPayload.append, List.countP_append,
        Parameter.isText, Parameter.named, Parameter.name, Parameter.type, Parameter.value]

end Payload

end ErrorQuery.Sql
