import ErrorQuery.Scan.Precedence
import ErrorQuery.Scan.Sequential

/-!
# From text to tokens

The two ways of scanning are the two strategies a user may choose from.  Either turns a text
into its tokens, always closed by the end of the query.
-/

set_option autoImplicit false

namespace ErrorQuery

open Text

/-- How a query text is cut into tokens. -/
inductive Strategy where
  | sequential
  | precedence
  deriving DecidableEq, Repr

namespace Strategy

/-- The strategy of a user who chooses none. -/
def standard : Strategy :=
  .precedence

/-- Both strategies, in the order in which they are listed to a reader. -/
def all : List Strategy :=
  [.sequential, .precedence]

/-- The name of a strategy in a configuration. -/
def name : Strategy → String
  | .sequential => "sequential"
  | .precedence => "precedence"

/-- The events of scanning a text. -/
def events : Strategy → List Char → List Event
  | .sequential => Sequential.events
  | .precedence => Precedence.events

/-- The tokens of a text, closed by the end of the query. -/
def tokenize (strategy : Strategy) (text : String) : List Token :=
  let cs := text.toList
  Event.tokens (strategy.events cs) ++ [.terminator (byteLength cs)]

end Strategy

end ErrorQuery
