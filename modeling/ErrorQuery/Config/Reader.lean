import ErrorQuery.Compiler
import ErrorQuery.Json.Literal

/-!
# Reading a configuration

A configuration is a JSON object with the members `tokenizer` and `line_ending`, each at most
once and none but these, or an array of the two in that order; what is left out takes its
standard value.  Each value is the name of a choice, either as a string or as an object whose
one member has that name and is null.  The text is read from left to right and the first fault
counts: an unknown or repeated member is reported before its value is looked at.
-/

set_option autoImplicit false

namespace ErrorQuery.Config

open Json

/-! ## Values -/

/-- The value with the given name among several. -/
def pick {α : Type} (all : List α) (nameOf : α → String) (name : String) : Except Fault α :=
  (choose all nameOf name).mapError .mismatch

/-- Reads a null. -/
def readNull (cs : List Char) : Except Fault (List Char) :=
  match skipGaps cs with
  | 'n' :: cs => expect "ull".toList cs
  | cs => unwanted "unit" cs

/-- Reads the name of a choice inside an object. -/
def readChoiceName (cs : List Char) : Except Fault (String × List Char) :=
  match skipGaps cs with
  | [] => .error .unfinished
  | '"' :: cs => readString cs
  | _ => .error .malformed

/-- Reads a choice: its name, or an object whose one member has that name and is null. -/
def readChoice {α : Type} (all : List α) (nameOf : α → String) (cs : List Char) :
    Except Fault (α × List Char) :=
  match skipGaps cs with
  | [] => .error .unfinished
  | '"' :: cs => do
      let (name, rest) ← readString cs
      let a ← pick all nameOf name
      .ok (a, rest)
  | '\x7b' :: cs => do
      let (name, rest) ← readChoiceName cs
      let a ← pick all nameOf name
      let rest ← mark ':' rest
      let rest ← readNull rest
      let rest ← mark '\x7d' rest
      .ok (a, rest)
  | _ => .error .malformed

/-- Reads how queries are scanned. -/
def readStrategy : List Char → Except Fault (Strategy × List Char) :=
  readChoice Strategy.all Strategy.name

/-- Reads how lines end. -/
def readLineEnding : List Char → Except Fault (LineEnding × List Char) :=
  readChoice LineEnding.all LineEnding.name

/-! ## Objects -/

/-- A part of a configuration. -/
inductive Setting where
  | strategy
  | lineEnding
  deriving DecidableEq, Repr

namespace Setting

/-- Both settings, in order. -/
def all : List Setting :=
  [.strategy, .lineEnding]

/-- The name of the member that holds a setting. -/
def name : Setting → String
  | .strategy => "tokenizer"
  | .lineEnding => "line_ending"

end Setting

/-- The settings that have been read. -/
structure Draft where
  strategy : Option Strategy
  lineEnding : Option LineEnding
  deriving DecidableEq, Repr

namespace Draft

/-- No settings. -/
def empty : Draft :=
  ⟨none, none⟩

/-- The configuration with these settings, and the standard ones where there is none. -/
def toConfig (d : Draft) : Config :=
  ⟨d.strategy.getD .standard, d.lineEnding.getD .standard⟩

/-- The number of settings that have not been read. -/
def missing (d : Draft) : Nat :=
  (if d.strategy.isSome then 0 else 1) + (if d.lineEnding.isSome then 0 else 1)

/-- Whether a setting has been read. -/
def has (d : Draft) : Setting → Bool
  | .strategy => d.strategy.isSome
  | .lineEnding => d.lineEnding.isSome

end Draft

/-- The setting that a member holds. -/
def readSetting (key : String) : Except Fault Setting :=
  match Setting.all.find? (·.name == key) with
  | some setting => .ok setting
  | none => .error (.mismatch (.unknownField key (Setting.all.map Setting.name)))

/-- Reads the value of a setting, colon included, into a draft. -/
def readValue (d : Draft) (cs : List Char) : Setting → Except Fault (Draft × List Char)
  | .strategy => do
      let rest ← mark ':' cs
      let (v, rest) ← readStrategy rest
      .ok ({ d with strategy := some v }, rest)
  | .lineEnding => do
      let rest ← mark ':' cs
      let (v, rest) ← readLineEnding rest
      .ok ({ d with lineEnding := some v }, rest)

/-- Reads a member, whose opening quote has been read, into a draft. -/
def readMember (d : Draft) (cs : List Char) : Except Fault (Draft × List Char) := do
  let (key, rest) ← readString cs
  let setting ← readSetting key
  if d.has setting then .error (.mismatch (.duplicateField setting.name))
  else readValue d rest setting

/-- A value that is read is one setting more. -/
theorem missing_lt_of_readValue {d d' : Draft} {cs rest : List Char} {setting : Setting}
    (hd : d.has setting = false) (h : readValue d cs setting = .ok (d', rest)) :
    d'.missing < d.missing := by
  cases setting with
  | strategy =>
      simp only [readValue, bind, Except.bind] at h
      split at h
      · cases h
      · split at h
        · cases h
        · cases h
          simp only [Draft.has] at hd
          simp [Draft.missing, hd]
  | lineEnding =>
      simp only [readValue, bind, Except.bind] at h
      split at h
      · cases h
      · split at h
        · cases h
        · cases h
          simp only [Draft.has] at hd
          simp [Draft.missing, hd]

/-- A member that is read is one setting more. -/
theorem missing_lt_of_readMember {d d' : Draft} {cs rest : List Char}
    (h : readMember d cs = .ok (d', rest)) : d'.missing < d.missing := by
  simp only [readMember, bind, Except.bind] at h
  split at h
  · cases h
  · split at h
    · cases h
    · split at h
      · cases h
      · next hd => exact missing_lt_of_readValue (by simpa using hd) h

/-- Reads the members of an object from a member on, whose opening quote has been read. -/
def readMembers (d : Draft) (cs : List Char) : Except Fault (Draft × List Char) :=
  match h : readMember d cs with
  | .error e => .error e
  | .ok (next, rest) =>
      match skipGaps rest with
      | [] => .error .unfinished
      | '\x7d' :: rest => .ok (next, rest)
      | ',' :: rest =>
          have := missing_lt_of_readMember h
          match skipGaps rest with
          | [] => .error .unfinished
          | '"' :: rest => readMembers next rest
          | _ => .error .malformed
      | _ => .error .malformed
termination_by d.missing

/-- Reads an object, whose opening brace has been read. -/
def readObject (cs : List Char) : Except Fault (Config × List Char) :=
  match skipGaps cs with
  | [] => .error .unfinished
  | '\x7d' :: rest => .ok (Draft.empty.toConfig, rest)
  | '"' :: rest => (readMembers Draft.empty rest).map fun (d, rest) => (d.toConfig, rest)
  | _ => .error .malformed

/-! ## Arrays and whole texts -/

/-- Reads an array, whose opening bracket has been read. -/
def readArray (cs : List Char) : Except Fault (Config × List Char) :=
  match skipGaps cs with
  | [] => .error .unfinished
  | ']' :: rest => .ok (Draft.empty.toConfig, rest)
  | cs => do
      let (strategy, rest) ← readStrategy cs
      match skipGaps rest with
      | [] => .error .unfinished
      | ']' :: rest => .ok (Draft.toConfig ⟨some strategy, none⟩, rest)
      | ',' :: rest => do
          let (lineEnding, rest) ← readLineEnding rest
          let rest ← mark ']' rest
          .ok (Draft.toConfig ⟨some strategy, some lineEnding⟩, rest)
      | _ => .error .malformed

/-- Reads a configuration at the front of a text. -/
def readFront (cs : List Char) : Except Fault (Config × List Char) :=
  match skipGaps cs with
  | '[' :: rest => readArray rest
  | '\x7b' :: rest => readObject rest
  | cs => unwanted "struct CompilerConfig" cs

/-- The configuration that a text denotes. -/
def read (text : String) : Except Fault Config := do
  let (config, rest) ← readFront text.toList
  if (skipGaps rest).isEmpty then .ok config else .error .malformed

end ErrorQuery.Config
