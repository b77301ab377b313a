import ErrorQuery.Text.Numeral
import ErrorQuery.Text.Characters

/-!
# Patterns of tokens

A pattern says how many characters at the front of a text belong to a token.  There are three
forms: a list of shapes, each a fixed sequence of letters and digits, of which the first that
fits is taken; a text in single quotes; and a run of digits as long as it goes.  No pattern
looks at what stands behind the characters it takes, apart from the run of digits.
-/

set_option autoImplicit false

namespace ErrorQuery

open Text

/-- What a shape asks of one character. -/
inductive Slot where
  /-- The given character, in either case if it is a letter. -/
  | letter (c : Char)
  /-- A decimal digit of any script. -/
  | digit
  deriving DecidableEq, Repr

namespace Slot

/-- Whether a character meets what the slot asks. -/
def fits : Slot → Char → Bool
  | .letter l, c => sameLetter c l
  | .digit, c => isDecimalDigit c

end Slot

/-- A fixed sequence of slots. -/
abbrev Shape := List Slot

namespace Shape

/-- The shape of a word, regardless of case. -/
def word (s : String) : Shape :=
  s.toList.map .letter

/-- A run of digits of fixed length. -/
def digits (count : Nat) : Shape :=
  List.replicate count .digit

/-- Whether the front of a text has the shape. -/
def fits : Shape → List Char → Bool
  | [], _ => true
  | _ :: _, [] => false
  | slot :: shape, c :: cs => slot.fits c && fits shape cs

end Shape

/-- How the text of a token looks. -/
inductive Pattern where
  /-- The first of these shapes that fits. -/
  | shapes (alternatives : List Shape)
  /-- A single quote, anything but a single quote, and a single quote. -/
  | quoted
  /-- One decimal digit or more, as many as follow each other. -/
  | digitRun
  deriving DecidableEq, Repr

namespace Pattern

/-- The pattern of a keyword with its spellings, the longest of them first. -/
def words (spellings : List String) : Pattern :=
  .shapes (spellings.map Shape.word)

/-- The pattern of a moment in time: year, month and day, hour, minute and second. -/
def timestamp : Pattern :=
  .shapes [.digits 4 ++ .word "-" ++ .digits 2 ++ .word "-" ++ .digits 2 ++ .word " " ++
    .digits 2 ++ .word ":" ++ .digits 2 ++ .word ":" ++ .digits 2]

/-- Whether a character may stand between quotes. -/
def isUnquoted (c : Char) : Bool :=
  c != '\''

/-- The number of characters that the pattern takes at the front of a text. -/
def width? : Pattern → List Char → Option Nat
  | .shapes alternatives, cs => (alternatives.find? (·.fits cs)).map List.length
  | .quoted, '\'' :: cs =>
      let inside := cs.takeWhile isUnquoted
      if inside.length < cs.length then some (inside.length + 2) else none
  | .quoted, _ => none
  | .digitRun, cs =>
      let run := cs.takeWhile isDecimalDigit
      if run.isEmpty then none else some run.length

/-- The value of a token in the characters that its pattern took: a quoted text loses its
quotes, any other is kept whole. -/
def value : Pattern → List Char → List Char
  | .quoted, cs => (cs.drop 1).dropLast
  | .shapes _, cs => cs
  | .digitRun, cs => cs

end Pattern

end ErrorQuery
