import ErrorQuery.DateTime.Basic
import ErrorQuery.Text.Characters
import ErrorQuery.Text.Numeral

/-!
# Reading a moment

A layout is the sequence of pieces that a written moment consists of: numbers, marks, places
where blanks may stand, and a fraction of a second.  `read` follows a layout along a text and
stops at the first fault.  Two layouts are in use: `queryLayout` for literals of a query and
`storedLayout` for the form that `DateTime.print` writes.

Every number may have blanks before it.  A year takes up to four digits, or a sign and any
number of them; the other numbers take up to two.  A number is checked against its range as
soon as it is read, whether the day exists only when all of the text has been read.
-/

set_option autoImplicit false

namespace ErrorQuery.DateTime

open Text

/-- Why a text is no moment. -/
inductive Fault where
  /-- The text ends too early. -/
  | premature
  /-- A character stands where it cannot. -/
  | unexpected
  /-- A number is too large or too small, or the day does not exist. -/
  | outOfRange
  /-- Something follows the moment. -/
  | trailing
  deriving DecidableEq, Repr

/-- The wording of a fault. -/
def Fault.message : Fault → String
  | .premature => "premature end of input"
  | .unexpected => "input contains invalid characters"
  | .outOfRange => "input is out of range"
  | .trailing => "trailing input"

/-- The numbers of a moment that has been read so far. -/
structure Draft where
  year : Int := 0
  month : Nat := 0
  day : Nat := 0
  hour : Nat := 0
  minute : Nat := 0
  second : Nat := 0
  nano : Nat := 0
  deriving DecidableEq, Repr

/-- The moment that the numbers of a draft name. -/
def Draft.toDateTime? (d : Draft) : Option DateTime :=
  ofParts? d.year d.month d.day d.hour d.minute d.second d.nano

/-- A number of a moment that is written with at most two digits. -/
inductive Part where
  | month
  | day
  | hour
  | minute
  | second
  deriving DecidableEq, Repr

namespace Part

/-- The least value of a number. -/
def least : Part → Nat
  | .month | .day => 1
  | .hour | .minute | .second => 0

/-- The greatest value of a number. -/
def greatest : Part → Nat
  | .month => 12
  | .day => 31
  | .hour => 23
  | .minute => 59
  | .second => 60

/-- The draft with one of its numbers set. -/
def set (d : Draft) (n : Nat) : Part → Draft
  | .month => { d with month := n }
  | .day => { d with day := n }
  | .hour => { d with hour := n }
  | .minute => { d with minute := n }
  | .second => { d with second := n }

end Part

/-- A piece of a written moment. -/
inductive Piece where
  | year
  | part (p : Part)
  | mark (c : Char)
  /-- Any number of blanks, none included. -/
  | blanks
  /-- A point and a fraction of a second, or nothing. -/
  | fraction
  deriving DecidableEq, Repr

/-- The digits of a number of at most `most` digits, or of any length, and the text behind
them. -/
def readDigits (most : Option Nat) (cs : List Char) : Except Fault (List Char × List Char) :=
  let run := cs.takeWhile isAsciiDigit
  let digits := match most with
    | some n => run.take n
    | none => run
  if cs.isEmpty then .error .premature
  else if digits.isEmpty then .error .unexpected
  else .ok (digits, cs.drop digits.length)

/-- A year and the text behind it. -/
def readYear (cs : List Char) : Except Fault (Int × List Char) := do
  let (year, rest) ← match trimFront cs with
    | '-' :: cs => do
        let (digits, rest) ← readDigits none cs
        pure (-(digitsValue digits : Int), rest)
    | '+' :: cs => do
        let (digits, rest) ← readDigits none cs
        pure ((digitsValue digits : Int), rest)
    | cs => do
        let (digits, rest) ← readDigits (some 4) cs
        pure ((digitsValue digits : Int), rest)
  if -2147483648 ≤ year ∧ year ≤ 2147483647 then .ok (year, rest) else .error .outOfRange

/-- A number of at most two digits and the text behind it. -/
def readPart (p : Part) (cs : List Char) : Except Fault (Nat × List Char) := do
  let (digits, rest) ← readDigits (some 2) (trimFront cs)
  let n := digitsValue digits
  if p.least ≤ n ∧ n ≤ p.greatest then .ok (n, rest) else .error .outOfRange

/-- A fraction of a second in nanoseconds and the text behind it; digits past the ninth do not
count. -/
def readFraction : List Char → Except Fault (Nat × List Char)
  | '.' :: cs => do
      let (digits, rest) ← readDigits (some 9) cs
      .ok (digitsValue digits * Nat.pow 10 (9 - digits.length), rest.dropWhile isAsciiDigit)
  | cs => .ok (0, cs)

/-- Reads one piece into a draft. -/
def readPiece (state : Draft × List Char) : Piece → Except Fault (Draft × List Char)
  | .year => do
      let (year, rest) ← readYear state.2
      .ok ({ state.1 with year := year }, rest)
  | .part p => do
      let (n, rest) ← readPart p state.2
      .ok (p.set state.1 n, rest)
  | .mark m =>
      match state.2 with
      | [] => .error .premature
      | c :: cs => if c = m then .ok (state.1, cs) else .error .unexpected
  | .blanks => .ok (state.1, trimFront state.2)
  | .fraction => do
      let (nano, rest) ← readFraction state.2
      .ok ({ state.1 with nano := nano }, rest)

/-- The moment that a text denotes in a layout. -/
def read (layout : List Piece) (cs : List Char) : Except Fault DateTime := do
  let (draft, rest) ← layout.foldlM readPiece (({} : Draft), cs)
  if rest.isEmpty then
    match draft.toDateTime? with
    | some t => .ok t
    | none => .error .outOfRange
  else .error .trailing

/-- Moments in a query: date and time of day with blanks between them. -/
def queryLayout : List Piece :=
  [.year, .mark '-', .part .month, .mark '-', .part .day, .blanks,
    .part .hour, .mark ':', .part .minute, .mark ':', .part .second]

/-- Stored moments: date and time of day with a `T` between them, and a fraction of a second. -/
def storedLayout : List Piece :=
  [.year, .blanks, .mark '-', .part .month, .blanks, .mark '-', .part .day, .blanks, .mark 'T',
    .part .hour, .blanks, .mark ':', .part .minute, .blanks, .mark ':', .part .second, .fraction,
    .blanks]

/-- The moment that a literal of a query denotes. -/
def ofLiteral? (s : String) : Option DateTime :=
  (read queryLayout s.toList).toOption

/-- The moment that a stored text denotes. -/
def parse (s : String) : Except Fault DateTime :=
  read storedLayout s.toList

end ErrorQuery.DateTime
