import ErrorQuery.DateTime.Reader
import ErrorQuery.Json.Basic
import ErrorQuery.Text.Quoted

/-!
# JSON that is not what was asked for

A well-formed JSON value may still fail to be the thing a reader wants.  A mismatch says what
was found and what was wanted, and `Mismatch.message` puts it into words.
-/

set_option autoImplicit false

namespace ErrorQuery.Json

open Text

/-- What stands in a place, as far as messages tell it. -/
inductive Found where
  | null
  | bool (b : Bool)
  | number (n : Number)
  | string (s : String)
  | sequence
  | map
  /-- A bare name where a name with a value was wanted. -/
  | bareName

namespace Found

/-- What a JSON value is. -/
def ofJson : Json → Found
  | .null => .null
  | .bool b => .bool b
  | .number n => .number n
  | .string s => .string s
  | .array _ => .sequence
  | .object _ => .map

/-- The wording of what stands in a place. -/
def text : Found → String
  | .null => "null"
  | .bool b => "boolean `" ++ (if b then "true" else "false") ++ "`"
  | .number (.integer n) => "integer `" ++ signed n ++ "`"
  | .number (.float x) => "floating point `" ++ floatText x ++ "`"
  | .string s => "string " ++ quote s
  | .sequence => "sequence"
  | .map => "map"
  | .bareName => "unit variant"

end Found

/-- Why a JSON value is not what was asked for. -/
inductive Mismatch where
  /-- A value of another type. -/
  | type (found : Found) (wanted : String)
  /-- A value of the right type that is not allowed. -/
  | value (found : Found) (wanted : String)
  | length (count : Nat) (wanted : String)
  | missingField (name : String)
  | unknownField (name : String) (known : List String)
  | duplicateField (name : String)
  | unknownVariant (name : String) (known : List String)
  | moment (fault : DateTime.Fault)

/-- A name between grave accents. -/
def ticked (name : String) : String :=
  "`" ++ name ++ "`"

/-- The wording of a choice between names. -/
def choiceText : List String → String
  | [a, b] => ticked a ++ " or " ++ ticked b
  | [a] => ticked a
  | names => "one of " ++ String.intercalate ", " (names.map ticked)

/-- The wording of a mismatch. -/
def Mismatch.message : Mismatch → String
  | .type found wanted => "invalid type: " ++ found.text ++ ", expected " ++ wanted
  | .value found wanted => "invalid value: " ++ found.text ++ ", expected " ++ wanted
  | .length count wanted => "invalid length " ++ decimal count ++ ", expected " ++ wanted
  | .missingField name => "missing field " ++ ticked name
  | .unknownField name known =>
      "unknown field " ++ ticked name ++ ", expected " ++ choiceText known
  | .duplicateField name => "duplicate field " ++ ticked name
  | .unknownVariant name known =>
      "unknown variant " ++ ticked name ++ ", expected " ++ choiceText known
  | .moment fault => fault.message

/-- The value with the given name among several. -/
def choose {α : Type} (all : List α) (nameOf : α → String) (name : String) : Except Mismatch α :=
  match all.find? (nameOf · == name) with
  | some a => .ok a
  | none => .error (.unknownVariant name (all.map nameOf))

end ErrorQuery.Json
