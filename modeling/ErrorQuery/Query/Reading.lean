import ErrorQuery.DateTime.Reader
import ErrorQuery.Query.Basic
import ErrorQuery.Query.SyntaxError

/-!
# From tokens to a query

A query is read token by token.  `Reading` says how far it has come: what has been read and what
may follow.  The grammar is

    query     = MATCH condition { connector condition } BETWEEN moment AND moment [ LIMIT number ]
    condition = field operator text  |  field operator "(" text { "," text } ")"
    connector = AND | OR

with a list of texts for the operators that take one.  `Reading.step` reads one token,
`Reading.finish` the end of the query, and `Query.ofTokens` a whole sequence.  At each stage the
first token that cannot continue a query is reported with what the stage waits for.
-/

set_option autoImplicit false

namespace ErrorQuery

/-- How far the reading of a query has come.  `done` holds the conditions that are complete and
joined to the next. -/
inductive Reading where
  | start
  | field (done : List Condition)
  | operator (done : List Condition) (field : Field)
  | text (done : List Condition) (field : Field) (operator : Operator)
  | opening (done : List Condition) (field : Field) (operator : Operator)
  | element (done : List Condition) (field : Field) (operator : Operator) (values : List String)
  | separator (done : List Condition) (field : Field) (operator : Operator) (values : List String)
  | tail (done : List Condition) (field : Field) (operator : Operator) (operand : Operand)
  | first (conditions : List Condition)
  | conjunction (conditions : List Condition) (first : DateTime)
  | last (conditions : List Condition) (first : DateTime)
  | limit (conditions : List Condition) (range : DateRange)
  | number (conditions : List Condition) (range : DateRange)
  | complete (query : Query)
  deriving DecidableEq

namespace Reading

/-- What may follow. -/
def expected : Reading → Expectation
  | .start => .kind .matching
  | .field _ => .field
  | .operator _ _ => .operator
  | .text _ _ _ => .kind .text
  | .opening _ _ _ => .kind .opening
  | .element _ _ _ _ => .kind .text
  | .separator _ _ _ _ => .kind .closing
  | .tail _ _ _ _ => .tail
  | .first _ => .kind .dateTime
  | .conjunction _ _ => .kind (.connector .and)
  | .last _ _ => .kind .dateTime
  | .limit _ _ => .limitOrEnd
  | .number _ _ => .number
  | .complete _ => .kind .terminator

/-- Reads one token other than the end of the query. -/
def step (reading : Reading) (token : Token) : Except Expectation Reading :=
  match reading, token.kind with
  | .start, .matching => .ok (.field [])
  | .field done, .field f => .ok (.operator done f)
  | .operator done f, .operator op =>
      .ok (if op.takesList then .opening done f op else .text done f op)
  | .text done f op, .text => .ok (.tail done f op (.single token.value))
  | .opening done f op, .opening => .ok (.element done f op [])
  | .element done f op values, .text => .ok (.separator done f op (values ++ [token.value]))
  | .separator done f op values, .comma => .ok (.element done f op values)
  | .separator done f op values, .closing => .ok (.tail done f op (.list values))
  | .tail done f op operand, .connector c => .ok (.field (done ++ [⟨f, op, operand, some c⟩]))
  | .tail done f op operand, .between => .ok (.first (done ++ [⟨f, op, operand, none⟩]))
  | .first conditions, .dateTime =>
      match DateTime.ofLiteral? token.value with
      | some t => .ok (.conjunction conditions t)
      | none => .error .moment
  | .conjunction conditions t, .connector .and => .ok (.last conditions t)
  | .last conditions t, .dateTime =>
      match DateTime.ofLiteral? token.value with
      | some u => .ok (.limit conditions ⟨t, u⟩)
      | none => .error .moment
  | .limit conditions range, .limit => .ok (.number conditions range)
  | .number conditions range, .number =>
      match Limit.read? token.value with
      | some n => .ok (.complete ⟨range, some n, conditions⟩)
      | none => .error .number
  | reading, _ => .error reading.expected

/-- The query that has been read when its end is reached. -/
def finish : Reading → Except Expectation Query
  | .limit conditions range => .ok ⟨range, none, conditions⟩
  | .complete query => .ok query
  | reading => .error reading.expected

/-- Reads tokens up to the end of the query.  A sequence without an end ends where its last
token does; `position` is the end of the token before. -/
def run (reading : Reading) (position : Nat) : List Token → Except SyntaxError Query
  | [] => reading.finish.mapError (⟨·, .terminator position⟩)
  | token :: tokens =>
      if token.kind = .terminator then reading.finish.mapError (⟨·, token⟩)
      else
        match reading.step token with
        | .ok next => next.run token.span.stop tokens
        | .error expected => .error ⟨expected, token⟩

end Reading

/-- The query that a sequence of tokens denotes; what stands behind the first end of the query
does not count. -/
def Query.ofTokens (tokens : List Token) : Except SyntaxError Query :=
  Reading.start.run 0 tokens

end ErrorQuery
