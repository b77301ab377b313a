/-!
# The words a condition is made of

A condition compares one property of a recorded error with one text or several.  This file
holds the properties (`Field`), the comparisons (`Operator`) and the words that join two
conditions (`Connector`), each with the list of all its values and the name it is stored and
logged under.
-/

set_option autoImplicit false

namespace ErrorQuery

/-- A property of a recorded error that a condition may ask about. -/
inductive Field where
  | application
  | exceptionType
  | fingerprint
  | message
  | stackFrame
  deriving DecidableEq, Repr

/-- How a condition compares its field with its operand. -/
inductive Operator where
  | equals
  | notEquals
  | like
  | notLike
  | oneOf
  | noneOf
  deriving DecidableEq, Repr

/-- The word between a condition and the next one. -/
inductive Connector where
  | and
  | or
  deriving DecidableEq, Repr

namespace Field

/-- All fields, in the order in which they are listed to a reader. -/
def all : List Field :=
  [.application, .exceptionType, .fingerprint, .message, .stackFrame]

/-- The name of a field in stored queries and log records. -/
def name : Field → String
  | .application => "Application"
  | .exceptionType => "ExceptionType"
  | .fingerprint => "Fingerprint"
  | .message => "Message"
  | .stackFrame => "StackFrame"

/-- Every field is listed. -/
theorem mem_all (f : Field) : f ∈ all := by
  cases f <;> decide

/-- Different fields have different names. -/
theorem name_inj {f g : Field} : f.name = g.name ↔ f = g := by
  cases f <;> cases g <;> decide

end Field

namespace Operator

/-- All operators, in the order in which they are listed to a reader. -/
def all : List Operator :=
  [.equals, .notEquals, .like, .notLike, .oneOf, .noneOf]

/-- The name of an operator in stored queries and log records. -/
def name : Operator → String
  | .equals => "Equals"
  | .notEquals => "NotEquals"
  | .like => "Like"
  | .notLike => "NotLike"
  | .oneOf => "In"
  | .noneOf => "NotIn"

/-- Whether the operand is a list of texts; the other operators take a single one. -/
def takesList : Operator → Bool
  | .oneOf | .noneOf => true
  | .equals | .notEquals | .like | .notLike => false

/-- Every operator is listed. -/
theorem mem_all (op : Operator) : op ∈ all := by
  cases op <;> decide

/-- Different operators have different names. -/
theorem name_inj {a b : Operator} : a.name = b.name ↔ a = b := by
  cases a <;> cases b <;> decide

end Operator

namespace Connector

/-- Both connectors, in the order in which they are listed to a reader. -/
def all : List Connector :=
  [.and, .or]

/-- The name of a connector in stored queries and log records. -/
def name : Connector → String
  | .and => "And"
  | .or => "Or"

/-- Every connector is listed. -/
theorem mem_all (c : Connector) : c ∈ all := by
  cases c <;> decide

/-- Different connectors have different names. -/
theorem name_inj {a b : Connector} : a.name = b.name ↔ a = b := by
  cases a <;> cases b <;> decide

end Connector

end ErrorQuery
