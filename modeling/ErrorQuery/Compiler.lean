import ErrorQuery.Log
import ErrorQuery.Query.Reading
import ErrorQuery.Scan.Strategy
import ErrorQuery.Sql.Statement

/-!
# From the text of a query to its statement

A configuration chooses how queries are scanned and how the lines of statements end.  With one
at hand a text is read as a query (`Config.parse`) and the query becomes a statement
(`Config.compile`).  Beside each stands the log that the work leaves behind.
-/

set_option autoImplicit false

namespace ErrorQuery

/-- The choices a user has. -/
structure Config where
  strategy : Strategy
  lineEnding : LineEnding
  deriving DecidableEq, Repr

/-- The configuration of a user who chooses nothing. -/
def Config.standard : Config :=
  ⟨.standard, .standard⟩

/-- Why a text has no statement. -/
inductive CompileError where
  | notQuery (e : SyntaxError)
  | notStatement (e : Sql.GenerationError)
  deriving DecidableEq, Repr

/-- The wording of an error. -/
def CompileError.message : CompileError → String
  | .notQuery e => "syntax error: " ++ e.message
  | .notStatement e => "SQL generation failed: " ++ e.message

/-- The records of cutting a text into tokens. -/
def Strategy.tokenizeLog (strategy : Strategy) (text : String) : List Record :=
  (strategy.events text.toList).filterMap (Log.ofEvent? text.toList)

namespace Config

/-- The query that a text denotes. -/
def parse (config : Config) (text : String) : Except SyntaxError Query :=
  Query.ofTokens (config.strategy.tokenize text)

/-- The statement of the query that a text denotes. -/
def compile (config : Config) (text : String) : Except CompileError Sql.Payload :=
  match config.parse text with
  | .ok query => (Sql.generate config.lineEnding query).mapError .notStatement
  | .error e => .error (.notQuery e)

/-- The records of reading a text as a query. -/
def parseLog (config : Config) (text : String) : List Record :=
  config.strategy.tokenizeLog text ++
    Log.ofTokens text.toList (config.strategy.tokenize text) ::
      match config.parse text with
      | .ok query => [Log.ofQuery query]
      | .error _ => []

/-- The records of turning a text into a statement. -/
def compileLog (config : Config) (text : String) : List Record :=
  config.parseLog text ++
    match config.parse text with
    | .ok query =>
        match Sql.generate config.lineEnding query with
        | .ok payload => [Log.ofPayload query payload]
        | .error _ => []
    | .error _ => []

end Config

end ErrorQuery
