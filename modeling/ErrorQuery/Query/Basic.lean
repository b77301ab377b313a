import ErrorQuery.DateTime.Basic
import ErrorQuery.Text.Numeral
import ErrorQuery.Vocabulary

/-!
# Queries

A query asks for the errors of a stretch of time that meet a chain of conditions, and possibly
for no more than a number of them.  The word that joins a condition to the next one is stored
with the former; the last condition of a chain needs none.

The number of a limit is written with ASCII digits, a plus sign allowed before them and leading
zeros anywhere, and must fit into 32 bits.
-/

set_option autoImplicit false

namespace ErrorQuery

/-- What a field is compared with. -/
inductive Operand where
  | single (value : String)
  | list (values : List String)
  deriving DecidableEq, Repr

namespace Operand

/-- The texts of an operand, in order. -/
def values : Operand → List String
  | .single value => [value]
  | .list values => values

end Operand

/-- One comparison, and how it is joined to the one behind it. -/
structure Condition where
  field : Field
  operator : Operator
  operand : Operand
  connector : Option Connector
  deriving DecidableEq, Repr

/-- The stretch of time that a query covers, both ends included. -/
structure DateRange where
  first : DateTime
  last : DateTime
  deriving DecidableEq

/-- A question about recorded errors. -/
structure Query where
  range : DateRange
  limit : Option UInt32
  conditions : List Condition
  deriving DecidableEq

namespace Limit

open Text

/-- The number that a text of ASCII digits denotes, if it fits into 32 bits. -/
def ofDigits? (cs : List Char) : Option UInt32 :=
  if !cs.isEmpty && cs.all isAsciiDigit && decide (digitsValue cs < 4294967296) then
    some (UInt32.ofNat (digitsValue cs))
  else none

/-- The limit that a text denotes. -/
def read? (s : String) : Option UInt32 :=
  match s.toList with
  | '+' :: cs => ofDigits? cs
  | cs => ofDigits? cs

end Limit

end ErrorQuery
