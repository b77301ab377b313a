import ErrorQuery.Json.Mismatch

/-!
# Taking JSON values apart

Readers of stored values are put together from the pieces of this file: texts, lists, named
choices, and records.  A choice is a bare name, or an object whose one member is named so and
holds what goes with it.  A record is an object, whose unknown members are ignored, or an array
of exactly its fields in order.
-/

set_option autoImplicit false

namespace ErrorQuery.Json

/-- The text that a value is. -/
def asString (wanted : String) : Json → Except Mismatch String
  | .string s => .ok s
  | j => .error (.type (.ofJson j) wanted)

/-- The items of a list. -/
def asList : Json → Except Mismatch (List Json)
  | .array items => .ok items
  | j => .error (.type (.ofJson j) "a sequence")

/-- A name and what goes with it, if anything does. -/
def asChoice : Json → Except Mismatch (String × Option Json)
  | .string name => .ok (name, none)
  | .object [(name, content)] => .ok (name, some content)
  | .object _ => .error (.value .map "map with a single key")
  | j => .error (.type (.ofJson j) "string or map")

/-- The value of a choice with which nothing but a null may go. -/
def asName {α : Type} (all : List α) (nameOf : α → String) (j : Json) : Except Mismatch α :=
  match asChoice j with
  | .error e => .error e
  | .ok (name, content) =>
      match choose all nameOf name with
      | .error e => .error e
      | .ok a =>
          match content with
          | none | some .null => .ok a
          | some j => .error (.type (.ofJson j) "unit")

/-- What goes with the name of a choice. -/
def content (j : Option Json) : Except Mismatch Json :=
  match j with
  | some j => .ok j
  | none => .error (.type .bareName "newtype variant")

/-- A value that may be absent, which a null says. -/
def optional {α : Type} (read : Json → Except Mismatch α) : Json → Except Mismatch (Option α)
  | .null => .ok none
  | j => (read j).map some

/-- The field of a record given by its members, read if it is there. -/
def field? {α : Type} (members : List (String × Json)) (name : String)
    (read : Json → Except Mismatch α) : Except Mismatch (Option α) :=
  match members.lookup name with
  | some j => (read j).map some
  | none => .ok none

/-- A field that has to be there. -/
def required {α : Type} (name : String) : Option α → Except Mismatch α
  | some a => .ok a
  | none => .error (.missingField name)

/-- The first of the remaining items of a record given by position, which has `count` fields,
and the items behind it. -/
def item {α : Type} (record : String) (count index : Nat) (read : Json → Except Mismatch α) :
    List Json → Except Mismatch (α × List Json)
  | j :: items => (read j).map (·, items)
  | [] =>
      .error (.length index (record ++ " with " ++ Text.decimal count ++ " elements"))

/-- Checks that a record given by position has no more items than its `count` fields. -/
def noMore (count : Nat) (items : List Json) : Except Mismatch Unit :=
  if items.isEmpty then .ok ()
  else .error (.length (count + items.length) "fewer elements in array")

end ErrorQuery.Json
