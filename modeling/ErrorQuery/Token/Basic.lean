import ErrorQuery.Vocabulary

/-!
# Tokens, their kinds and where they stand

A token carries its kind, its text and the stretch of the query it was read from, in bytes.  It
is a keyword, a word of the vocabulary, a mark, a literal, or one of two special kinds:
a stretch of text that is no token of the language, and the end of the query.  `Kind.name` is
the name used in log records, `Kind.wording` the words shown to the author of a query.
-/

set_option autoImplicit false

namespace ErrorQuery

/-- What a token is. -/
inductive Kind where
  | matching
  | between
  | limit
  | connector (c : Connector)
  | field (f : Field)
  | operator (op : Operator)
  | comma
  | opening
  | closing
  | text
  | dateTime
  | number
  | invalid
  | terminator
  deriving DecidableEq, Repr

namespace Kind

/-- All kinds. -/
def all : List Kind :=
  [.matching, .between, .limit] ++ Connector.all.map .connector ++ Field.all.map .field ++
    Operator.all.map .operator ++
    [.comma, .opening, .closing, .text, .dateTime, .number, .invalid, .terminator]

/-- The name of a kind in log records. -/
def name : Kind → String
  | .matching => "Match"
  | .between => "Between"
  | .limit => "Limit"
  | .connector c => c.name
  | .field f => f.name
  | .operator op => op.name
  | .comma => "Comma"
  | .opening => "OpenParenthesis"
  | .closing => "CloseParenthesis"
  | .text => "StringValue"
  | .dateTime => "DateTimeValue"
  | .number => "Number"
  | .invalid => "Invalid"
  | .terminator => "SequenceTerminator"

/-- How a kind is called in front of the author of a query. -/
def wording : Kind → String
  | .matching => "MATCH"
  | .between => "BETWEEN"
  | .limit => "LIMIT"
  | .connector .and => "AND"
  | .connector .or => "OR"
  | .field .application => "APPLICATION"
  | .field .exceptionType => "EXCEPTIONTYPE"
  | .field .fingerprint => "FINGERPRINT"
  | .field .message => "MESSAGE"
  | .field .stackFrame => "STACKFRAME"
  | .operator .equals => "="
  | .operator .notEquals => "!="
  | .operator .like => "LIKE"
  | .operator .notLike => "NOT LIKE"
  | .operator .oneOf => "IN"
  | .operator .noneOf => "NOT IN"
  | .comma => ","
  | .opening => "("
  | .closing => ")"
  | .text => "STRINGVALUE"
  | .dateTime => "DATETIMEVALUE"
  | .number => "NUMBER"
  | .invalid => "INVALID"
  | .terminator => "end of query"

/-- Whether the kind names a field. -/
def isField : Kind → Bool
  | .field _ => true
  | _ => false

/-- Whether the kind is an operator on a single text. -/
def isSingleOperator : Kind → Bool
  | .operator op => !op.takesList
  | _ => false

/-- Every kind is listed. -/
theorem mem_all (k : Kind) : k ∈ all := by
  cases k with
  | connector c => cases c <;> decide
  | field f => cases f <;> decide
  | operator op => cases op <;> decide
  | _ => decide

end Kind

/-- A stretch of a text, from the byte `start` up to the byte `stop`. -/
structure Span where
  start : Nat
  stop : Nat
  deriving DecidableEq, Repr

/-- One unit of a query. -/
structure Token where
  kind : Kind
  /-- The text that was read; of a quoted text what stands between the quotes. -/
  value : String
  span : Span
  deriving DecidableEq, Repr

namespace Token

/-- The end of a query at a byte position. -/
def terminator (position : Nat) : Token :=
  ⟨.terminator, "", ⟨position, position⟩⟩

/-- The end of a query is an end by its kind. -/
@[simp] theorem terminator_kind (position : Nat) : (terminator position).kind = .terminator := rfl

/-- The end of a query is empty. -/
@[simp] theorem terminator_span (position : Nat) :
    (terminator position).span = ⟨position, position⟩ := rfl

end Token

end ErrorQuery
