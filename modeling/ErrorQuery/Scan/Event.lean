import ErrorQuery.Token.Basic

/-!
# What happens while a text is scanned

Scanning a query yields events in the order of the text: a token that counts, a token that was
found but overlaps an earlier one, and a stretch that no token covers.  The tokens of a query
are the ones that count, closed by the end of the query.
-/

set_option autoImplicit false

namespace ErrorQuery

/-- A step of a scan. -/
inductive Event where
  /-- A token of the query. -/
  | accepted (token : Token)
  /-- A token that begins inside an accepted one and therefore does not count. -/
  | overlapped (token : Token)
  /-- A stretch between two accepted tokens, or between one and an end of the text. -/
  | gap (span : Span)
  deriving DecidableEq, Repr

namespace Event

/-- The token of an event that counts. -/
def token? : Event → Option Token
  | .accepted token => some token
  | .overlapped _ => none
  | .gap _ => none

/-- The tokens that count among some events. -/
def tokens (events : List Event) : List Token :=
  events.filterMap token?

/-- Without events there are no tokens. -/
@[simp] theorem tokens_nil : tokens [] = [] := rfl

/-- A token that counts is one of the tokens. -/
@[simp] theorem tokens_accepted (token : Token) (events : List Event) :
    tokens (.accepted token :: events) = token :: tokens events := rfl

/-- A token that does not count is none of the tokens. -/
@[simp] theorem tokens_overlapped (token : Token) (events : List Event) :
    tokens (.overlapped token :: events) = tokens events := rfl

/-- A gap is none of the tokens. -/
@[simp] theorem tokens_gap (span : Span) (events : List Event) :
    tokens (.gap span :: events) = tokens events := rfl

end Event

end ErrorQuery
