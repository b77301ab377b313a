import ErrorQuery.Query.Basic
import ErrorQuery.Text.Numeral

/-!
# A statement under construction

A payload is the text of a statement together with the values bound to its placeholders.
Values never enter the text: a text is bound to `@Param1`, `@Param2` and so on, one placeholder
for each in the order in which they come, and the two ends of the date range are bound to
`@FromDate` and `@ToDate`, each once however often its placeholder is written.  Each field is
kept in one column of the store, as a text of limited width.
-/

set_option autoImplicit false

namespace ErrorQuery

namespace Field

/-- The column that holds a field. -/
def column : Field → String
  | .application => "ED.ApplicationId"
  | .exceptionType => "EB.ExceptionType"
  | .fingerprint => "ED.FingerprintText"
  | .message => "T.MessageDetails"
  | .stackFrame => "EB.StackFrame"

/-- The width of that column in characters. -/
def width : Field → Nat
  | .application => 200
  | .exceptionType => 200
  | .fingerprint => 32
  | .message => 1000
  | .stackFrame => 1000

end Field

namespace Sql

/-- An end of the date range. -/
inductive Bound where
  | first
  | last
  deriving DecidableEq, Repr

/-- The declared type of a parameter. -/
inductive SqlType where
  | varChar (width : Nat)
  | dateTime
  deriving DecidableEq, Repr

/-- What a placeholder stands for. -/
inductive Value where
  | text (s : String)
  | moment (t : DateTime)
  deriving DecidableEq

/-- A value bound to a placeholder: an end of the date range, or a text for a column of the
given width. -/
inductive Parameter where
  | moment (bound : Bound) (t : DateTime)
  | text (number width : Nat) (s : String)
  deriving DecidableEq

namespace Bound

/-- The placeholder of an end of the date range. -/
def placeholder : Bound → String
  | .first => "@FromDate"
  | .last => "@ToDate"

end Bound

/-- The placeholder of the text with the given number, counted from 1. -/
def textPlaceholder (number : Nat) : String :=
  "@Param" ++ Text.decimal number

namespace Parameter

/-- The placeholder that a parameter is bound to. -/
def name : Parameter → String
  | .moment bound _ => bound.placeholder
  | .text number _ _ => textPlaceholder number

/-- The declared type of a parameter. -/
def type : Parameter → SqlType
  | .moment _ _ => .dateTime
  | .text _ width _ => .varChar width

/-- The value of a parameter. -/
def value : Parameter → Value
  | .moment _ t => .moment t
  | .text _ _ s => .text s

/-- Whether a parameter is a text. -/
def isText : Parameter → Bool
  | .moment _ _ => false
  | .text _ _ _ => true

/-- Whether a parameter is the given end of the date range. -/
def isBound (bound : Bound) : Parameter → Bool
  | .moment b _ => b == bound
  | .text _ _ _ => false

end Parameter

/-- The text of a statement and the parameters it refers to, in the order of their binding. -/
structure Payload where
  /-- What each line of the text ends in. -/
  lineEnding : String
  sql : String
  parameters : List Parameter
  deriving DecidableEq

namespace Payload

/-- A payload without text and parameters. -/
def empty (lineEnding : String) : Payload :=
  ⟨lineEnding, "", []⟩

/-- Writes a text. -/
def append (p : Payload) (text : String) : Payload :=
  { p with sql := p.sql ++ text }

/-- Ends the line. -/
def newLine (p : Payload) : Payload :=
  p.append p.lineEnding

/-- Writes a text and ends the line. -/
def appendLine (p : Payload) (text : String) : Payload :=
  (p.append text).newLine

/-- Writes the column of a field. -/
def appendColumn (p : Payload) (field : Field) : Payload :=
  p.append field.column

/-- The number of the next text to be bound. -/
def nextNumber (p : Payload) : Nat :=
  p.parameters.countP Parameter.isText + 1

/-- Binds a text to the next placeholder and writes the placeholder. -/
def bindText (p : Payload) (field : Field) (s : String) : Payload :=
  { p.append (textPlaceholder p.nextNumber) with
    parameters := p.parameters ++ [.text p.nextNumber field.width s] }

/-- Binds texts one by one and writes their placeholders with commas between them. -/
def bindTexts (p : Payload) (field : Field) : List String → Payload
  | [] => p
  | [s] => p.bindText field s
  | s :: t :: ss => bindTexts ((p.bindText field s).append ",") field (t :: ss)

/-- Binds the texts of an operand. -/
def bindOperand (p : Payload) (field : Field) (operand : Operand) : Payload :=
  p.bindTexts field operand.values

/-- Writes the placeholder of an end of the date range, and binds it if it is not bound yet. -/
def bindMoment (p : Payload) (bound : Bound) (t : DateTime) : Payload :=
  if p.parameters.any (Parameter.isBound bound) then p.append bound.placeholder
  else { p.append bound.placeholder with parameters := p.parameters ++ [.moment bound t] }

/-- The bound values, in the order of the parameters. -/
def values (p : Payload) : List Value :=
  p.parameters.map Parameter.value

/-- The names of the parameters, in order. -/
def names (p : Payload) : List String :=
  p.parameters.map Parameter.name

end Payload

end Sql

end ErrorQuery
