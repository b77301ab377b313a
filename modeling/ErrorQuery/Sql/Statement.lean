import ErrorQuery.Sql.Payload
import ErrorQuery.Text.Quoted

/-!
# The statement of a query

A query becomes one statement that ranks error definitions by how often they occurred.  Its
text is fixed but for the limit and one line for each condition; the word in front of a
condition is the one stored with the condition before it, and `AND` for the first.  A chain that
lacks such a word, and an operand that does not suit its operator, have no statement.  The lines
end in a line feed, or in a carriage return and a line feed.
-/

set_option autoImplicit false

namespace ErrorQuery

/-- How the lines of a statement end. -/
inductive LineEnding where
  | lf
  | crlf
  deriving DecidableEq, Repr

namespace LineEnding

/-- The line ending of a user who chooses none. -/
def standard : LineEnding :=
  .lf

/-- Both line endings, in the order in which they are listed to a reader. -/
def all : List LineEnding :=
  [.lf, .crlf]

/-- The name of a line ending in a configuration. -/
def name : LineEnding → String
  | .lf => "lf"
  | .crlf => "crlf"

/-- The characters that end a line. -/
def text : LineEnding → String
  | .lf => "\n"
  | .crlf => "\r\n"

end LineEnding

/-- The wording of an operand in messages. -/
def Operand.display : Operand → String
  | .single value => "Single(" ++ Text.quote value ++ ")"
  | .list values => "List([" ++ String.intercalate ", " (values.map Text.quote) ++ "])"

namespace Sql

/-- Why a query has no statement. -/
inductive GenerationError where
  /-- The operand does not suit the operator. -/
  | unsupported (operator : Operator) (operand : Operand)
  /-- The condition with this number, counted from 0, is not joined to the next. -/
  | missingConnector (index : Nat)
  deriving DecidableEq, Repr

/-- The wording of an error. -/
def GenerationError.message : GenerationError → String
  | .unsupported operator operand =>
      "operator " ++ operator.name ++ " is not supported with value " ++ operand.display
  | .missingConnector index =>
      "match condition " ++ Text.decimal index ++
        " has no connector to the next condition"

/-- The lines that say what is selected and from where. -/
def projection : List String :=
  ["        ED.FingerprintText",
    "        ,ED.ApplicationId",
    "        ,ED.OriginExceptionType",
    "        ,ED.OriginStackFrame",
    "        ,ED.LowestAppStackFrame",
    "        ,ED.HighestAppStackFrame",
    "        ,SUM(T.Frequency) AS TotalErrors",
    "FROM Timeline T",
    "JOIN ErrorDefinition AS ED ON T.Fingerprint = ED.Fingerprint"]

/-- The lines that say how rows are grouped and ordered. -/
def grouping : List String :=
  ["GROUP BY ED.FingerprintText",
    "        ,ED.ApplicationId",
    "        ,ED.OriginExceptionType",
    "        ,ED.OriginStackFrame",
    "        ,ED.LowestAppStackFrame",
    "        ,ED.HighestAppStackFrame",
    "ORDER BY TotalErrors DESC"]

/-- The first line of a statement. -/
def selectLine : Option UInt32 → String
  | some limit => "SELECT TOP " ++ Text.decimal limit.toNat
  | none => "SELECT"

/-- The text in front of a condition. -/
def lead : Connector → String
  | .and => "AND "
  | .or => "OR "

/-- The texts around the placeholders of a comparison, if the operand suits the operator. -/
def frame? : Operator → Operand → Option (String × String)
  | .equals, .single _ => some (" = ", "")
  | .notEquals, .single _ => some (" <> ", "")
  | .like, .single _ => some (" LIKE '%' + ", " + '%'")
  | .notLike, .single _ => some (" NOT LIKE '%' + ", " + '%'")
  | .oneOf, .list (_ :: _) => some (" IN (", ")")
  | .noneOf, .list (_ :: _) => some (" NOT IN (", ")")
  | _, _ => none

namespace Payload

/-- Writes several lines. -/
def appendLines (p : Payload) (lines : List String) : Payload :=
  lines.foldl appendLine p

/-- Writes the line that bounds the date. -/
def appendRange (p : Payload) (range : DateRange) : Payload :=
  ((((p.append "WHERE T.ErrorDateTime BETWEEN ").bindMoment .first range.first).append
    " AND ").bindMoment .last range.last).newLine

/-- Writes the line of a condition behind the given word. -/
def appendCondition (p : Payload) (connector : Connector) (condition : Condition) :
    Except GenerationError Payload :=
  match frame? condition.operator condition.operand with
  | some (before, after) =>
      .ok (((((p.append (lead connector)).appendColumn condition.field).append before).bindOperand
        condition.field condition.operand).append after).newLine
  | none => .error (.unsupported condition.operator condition.operand)

/-- Writes the lines of conditions.  `connector` is the word stored with the condition before
them and `index` the number of the first of them. -/
def appendConditions (p : Payload) (connector : Option Connector) (index : Nat) :
    List Condition → Except GenerationError Payload
  | [] => .ok p
  | condition :: conditions =>
      match connector with
      | none => .error (.missingConnector (index - 1))
      | some connector =>
          match p.appendCondition connector condition with
          | .ok next => next.appendConditions condition.connector (index + 1) conditions
          | .error e => .error e

end Payload

/-- The statement of a query. -/
def generate (lineEnding : LineEnding) (query : Query) : Except GenerationError Payload :=
  let head := ((Payload.empty lineEnding.text).appendLine (selectLine query.limit)).appendLines
    projection
  match (head.appendRange query.range).appendConditions (some .and) 0 query.conditions with
  | .ok p => .ok (p.appendLines grouping)
  | .error e => .error e

end Sql

end ErrorQuery
