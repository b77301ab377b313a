import ErrorQuery.Query.Basic
import ErrorQuery.Scan.Event
import ErrorQuery.Sql.Payload
import ErrorQuery.Text.Characters
import ErrorQuery.Text.Bytes
import ErrorQuery.Text.Numeral
import ErrorQuery.Text.Quoted

/-!
# Log records

Each stage of the work leaves records of what it did.  They are made from the results of the
stages and change none of them.
-/

set_option autoImplicit false

namespace ErrorQuery

open Text

/-- How much a record matters. -/
inductive Level where
  | trace
  | debug
  | warn
  deriving DecidableEq, Repr

/-- The name of a level. -/
def Level.name : Level → String
  | .trace => "TRACE"
  | .debug => "DEBUG"
  | .warn => "WARN"

/-- A message and how much it matters. -/
structure Record where
  level : Level
  message : String
  deriving DecidableEq, Repr

namespace Log

/-- A span as its two positions. -/
def spanText (span : Span) : String :=
  decimal span.start ++ ".." ++ decimal span.stop

/-- A limit that may be absent. -/
def limitText : Option UInt32 → String
  | some n => "Some(" ++ decimal n.toNat ++ ")"
  | none => "None"

/-- The record of a token. -/
def ofToken (token : Token) : Record :=
  if token.kind = .invalid then
    ⟨.debug, "invalid fragment " ++ quote token.value ++ " at " ++ spanText token.span⟩
  else ⟨.trace, "token " ++ token.kind.name ++ " " ++ quote token.value⟩

/-- The record of a gap in a text, unless it holds nothing but blanks. -/
def ofGap? (cs : List Char) (span : Span) : Option Record :=
  let dropped := trim (slice span.start span.stop cs)
  if dropped.isEmpty then none
  else some ⟨.debug, "dropping unmatched text " ++ quote (String.ofList dropped) ++ " at " ++
    spanText span⟩

/-- The record of a step in the scan of a text. -/
def ofEvent? (cs : List Char) : Event → Option Record
  | .accepted token => some (ofToken token)
  | .overlapped token =>
      some ⟨.trace, "discarding overlapping " ++ token.kind.name ++ " at " ++
        decimal token.span.start⟩
  | .gap span => ofGap? cs span

/-- The record of a text that has been cut into tokens. -/
def ofTokens (cs : List Char) (tokens : List Token) : Record :=
  ⟨.debug, "tokenized " ++ decimal (byteLength cs) ++ " byte(s) into " ++
    decimal tokens.length ++ " token(s)"⟩

/-- The record of a query that has been read. -/
def ofQuery (query : Query) : Record :=
  ⟨.debug, "parsed " ++ decimal query.conditions.length ++ " match condition(s), limit " ++
    limitText query.limit⟩

/-- The record of a statement that has been written. -/
def ofPayload (query : Query) (payload : Sql.Payload) : Record :=
  ⟨.debug, "generated SQL for " ++ decimal query.conditions.length ++
    " condition(s) with " ++ decimal payload.parameters.length ++ " parameter(s)"⟩

end Log

end ErrorQuery
