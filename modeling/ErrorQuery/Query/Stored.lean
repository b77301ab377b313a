import ErrorQuery.DateTime.Basic
import ErrorQuery.Json.Shape
import ErrorQuery.Query.Basic

/-!
# Stored queries

A query is stored as a JSON object shaped like itself: every field is written, an absent
limit or connector as null, and moments in the form of `DateTime.print`.  Reading is more
liberal: unknown members are ignored, an absent limit or connector may be left out, and records
may be given by position.  Of several faults the first in the order of the member names is
reported, and missing fields only if every field that is there can be read.
-/

set_option autoImplicit false

namespace ErrorQuery

open Json (Mismatch)

namespace DateTime

/-- The stored form of a moment. -/
def toJson (t : DateTime) : Json :=
  .string t.print

/-- Reads a stored moment. -/
def ofJson (j : Json) : Except Mismatch DateTime := do
  let s ← Json.asString "a formatted date and time string" j
  (DateTime.parse s).mapError .moment

end DateTime

namespace Operand

/-- Whether an operand is a single text or a list. -/
inductive Form where
  | single
  | list
  deriving DecidableEq, Repr

/-- Both forms, in the order in which they are listed to a reader. -/
def Form.all : List Form :=
  [.single, .list]

/-- The name of a form in stored queries. -/
def Form.name : Form → String
  | .single => "Single"
  | .list => "List"

/-- The stored form of an operand. -/
def toJson : Operand → Json
  | .single value => .object [(Form.single.name, .string value)]
  | .list values => .object [(Form.list.name, .array (values.map .string))]

/-- Reads a stored operand. -/
def ofJson (j : Json) : Except Mismatch Operand := do
  let (name, content?) ← Json.asChoice j
  let form ← Json.choose Form.all Form.name name
  let content ← Json.content content?
  match form with
  | .single =>
      let value ← Json.asString "a string" content
      return .single value
  | .list =>
      let items ← Json.asList content
      let values ← items.mapM (Json.asString "a string")
      return .list values

end Operand

namespace Condition

/-- Reads the field of a stored condition. -/
def fieldOfJson : Json → Except Mismatch Field :=
  Json.asName Field.all Field.name

/-- Reads the operator of a stored condition. -/
def operatorOfJson : Json → Except Mismatch Operator :=
  Json.asName Operator.all Operator.name

/-- Reads the connector of a stored condition. -/
def connectorOfJson : Json → Except Mismatch (Option Connector) :=
  Json.optional (Json.asName Connector.all Connector.name)

/-- The stored form of a condition. -/
def toJson (c : Condition) : Json :=
  .object [("connector", match c.connector with
      | some connector => .string connector.name
      | none => .null),
    ("object", .string c.field.name),
    ("operator", .string c.operator.name),
    ("value", c.operand.toJson)]

/-- Reads a stored condition. -/
def ofJson (j : Json) : Except Mismatch Condition :=
  match j with
  | .object members => do
      let connector ← Json.field? members "connector" connectorOfJson
      let field ← Json.field? members "object" fieldOfJson
      let operator ← Json.field? members "operator" operatorOfJson
      let operand ← Json.field? members "value" Operand.ofJson
      let field ← Json.required "object" field
      let operator ← Json.required "operator" operator
      let operand ← Json.required "value" operand
      return ⟨field, operator, operand, connector.join⟩
  | .array items => do
      let record := "struct MatchCondition"
      let (field, items) ← Json.item record 4 0 fieldOfJson items
      let (operator, items) ← Json.item record 4 1 operatorOfJson items
      let (operand, items) ← Json.item record 4 2 Operand.ofJson items
      let (connector, items) ← Json.item record 4 3 connectorOfJson items
      Json.noMore 4 items
      return ⟨field, operator, operand, connector⟩
  | j => .error (.type (.ofJson j) "struct MatchCondition")

end Condition

namespace DateRange

/-- The stored form of a date range. -/
def toJson (r : DateRange) : Json :=
  .object [("from", r.first.toJson), ("to", r.last.toJson)]

/-- Reads a stored date range. -/
def ofJson (j : Json) : Except Mismatch DateRange :=
  match j with
  | .object members => do
      let first ← Json.field? members "from" DateTime.ofJson
      let last ← Json.field? members "to" DateTime.ofJson
      let first ← Json.required "from" first
      let last ← Json.required "to" last
      return ⟨first, last⟩
  | .array items => do
      let record := "struct DateRange"
      let (first, items) ← Json.item record 2 0 DateTime.ofJson items
      let (last, items) ← Json.item record 2 1 DateTime.ofJson items
      Json.noMore 2 items
      return ⟨first, last⟩
  | j => .error (.type (.ofJson j) "struct DateRange")

end DateRange

namespace Query

/-- Reads a stored limit. -/
def limitOfJson : Json → Except Mismatch (Option UInt32) :=
  Json.optional fun
    | .number (.integer n) =>
        if 0 ≤ n ∧ n < 4294967296 then .ok (UInt32.ofNat n.toNat)
        else .error (.value (.number (.integer n)) "u32")
    | j => .error (.type (.ofJson j) "u32")

/-- Reads stored conditions. -/
def conditionsOfJson (j : Json) : Except Mismatch (List Condition) := do
  let items ← Json.asList j
  items.mapM Condition.ofJson

/-- The stored form of a query. -/
def toJson (q : Query) : Json :=
  .object [("date_range", q.range.toJson),
    ("limit", match q.limit with
      | some n => .number (.integer n.toNat)
      | none => .null),
    ("match_conditions", .array (q.conditions.map Condition.toJson))]

/-- Reads a stored query. -/
def ofJson (j : Json) : Except Mismatch Query :=
  match j with
  | .object members => do
      let range ← Json.field? members "date_range" DateRange.ofJson
      let limit ← Json.field? members "limit" limitOfJson
      let conditions ← Json.field? members "match_conditions" conditionsOfJson
      let range ← Json.required "date_range" range
      let conditions ← Json.required "match_conditions" conditions
      return ⟨range, limit.join, conditions⟩
  | .array items => do
      let record := "struct Query"
      let (range, items) ← Json.item record 3 0 DateRange.ofJson items
      let (limit, items) ← Json.item record 3 1 limitOfJson items
      let (conditions, items) ← Json.item record 3 2 conditionsOfJson items
      Json.noMore 3 items
      return ⟨range, limit, conditions⟩
  | j => .error (.type (.ofJson j) "struct Query")

end Query

end ErrorQuery
