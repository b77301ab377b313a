import ErrorQuery.Json.Literal

/-!
# Reading JSON values

A whole JSON text, such as a stored query, is read into a value.  Numbers keep what their
written form says about them: `1e5` is no integer.  Of members with the same name the last one
counts.
-/

set_option autoImplicit false

namespace ErrorQuery.Json

/-- Puts a member in front of those behind it, unless one of them has its name. -/
def addMember (name : String) (value : Json) (members : List (String × Json)) :
    List (String × Json) :=
  if members.any (·.1 == name) then members else (name, value) :: members

mutual

/-- Reads a value.  The first argument bounds how many readers are under way at once. -/
def readJson : Nat → List Char → Except Fault (Json × List Char)
  | 0, _ => .error .malformed
  | depth + 1, cs =>
      match skipGaps cs with
      | [] => .error .unfinished
      | 'n' :: cs => (expect "ull".toList cs).map (Json.null, ·)
      | 't' :: cs => (expect "rue".toList cs).map (Json.bool true, ·)
      | 'f' :: cs => (expect "alse".toList cs).map (Json.bool false, ·)
      | '-' :: cs => (readNumber true cs).map fun (n, rest) => (.number n, rest)
      | '"' :: cs => (readString cs).map fun (s, rest) => (.string s, rest)
      | '[' :: cs =>
          match skipGaps cs with
          | ']' :: rest => .ok (.array [], rest)
          | cs => (readJsonItems depth cs).map fun (items, rest) => (.array items, rest)
      | '\x7b' :: cs =>
          match skipGaps cs with
          | '\x7d' :: rest => .ok (.object [], rest)
          | cs => (readJsonMembers depth cs).map fun (members, rest) => (.object members, rest)
      | c :: cs =>
          if Text.isAsciiDigit c then
            (readNumber false (c :: cs)).map fun (n, rest) => (.number n, rest)
          else .error .malformed

/-- Reads the items of an array up to its closing bracket. -/
def readJsonItems : Nat → List Char → Except Fault (List Json × List Char)
  | 0, _ => .error .malformed
  | depth + 1, cs =>
      match readJson depth cs with
      | .error e => .error e
      | .ok (item, rest) =>
          match skipGaps rest with
          | [] => .error .unfinished
          | ']' :: rest => .ok ([item], rest)
          | ',' :: rest =>
              (readJsonItems depth rest).map fun (items, rest) => (item :: items, rest)
          | _ => .error .malformed

/-- Reads the members of an object up to its closing brace. -/
def readJsonMembers : Nat → List Char → Except Fault (List (String × Json) × List Char)
  | 0, _ => .error .malformed
  | depth + 1, cs => do
      let rest ← mark '"' cs
      let (name, rest) ← readString rest
      let rest ← mark ':' rest
      match readJson depth rest with
      | .error e => .error e
      | .ok (value, rest) =>
          match skipGaps rest with
          | [] => .error .unfinished
          | '\x7d' :: rest => .ok ([(name, value)], rest)
          | ',' :: rest =>
              (readJsonMembers depth rest).map fun (members, rest) =>
                (addMember name value members, rest)
          | _ => .error .malformed

end

/-- The value that a text denotes.  Of three readers that are under way at once, the last begins
at least one character behind the first, so the bound is never reached. -/
def parse (text : String) : Except Fault Json := do
  let (value, rest) ← readJson (2 * text.toList.length + 2) text.toList
  if (skipGaps rest).isEmpty then .ok value else .error .malformed

end ErrorQuery.Json
