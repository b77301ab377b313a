import ErrorQuery.Token.Basic

/-!
# Why a token sequence is no query

A query is rejected at its first token that cannot continue it.  The error keeps that token and
what could have stood in its place; the wording of both is decided here.
-/

set_option autoImplicit false

namespace ErrorQuery

/-- What could have continued a query. -/
inductive Expectation where
  | kind (k : Kind)
  | field
  | operator
  | tail
  /-- A date-time literal that denotes a moment. -/
  | moment
  | limitOrEnd
  | number
  deriving DecidableEq, Repr

/-- The wording of an expectation. -/
def Expectation.text : Expectation → String
  | .kind k => k.wording
  | .field => "app, ex, fingerprint, msg or sf"
  | .operator => "=, !=, LIKE, NOT LIKE, IN or NOT IN"
  | .tail => "AND, OR or BETWEEN"
  | .moment => "a valid date-time formatted as yyyy-MM-dd HH:mm:ss"
  | .limitOrEnd => "LIMIT or the end of the query"
  | .number => "an integer number"

/-- The first token that cannot continue a query, and what could have stood there. -/
structure SyntaxError where
  expected : Expectation
  token : Token
  deriving DecidableEq, Repr

namespace SyntaxError

/-- What was found in place of the expected: the text of the token, or that the query ends. -/
def found (e : SyntaxError) : String :=
  if e.token.kind = .terminator then Kind.wording .terminator else e.token.value

/-- The wording of the error. -/
def message (e : SyntaxError) : String :=
  "Expected " ++ e.expected.text ++ " but found: " ++ e.found

end SyntaxError

end ErrorQuery
