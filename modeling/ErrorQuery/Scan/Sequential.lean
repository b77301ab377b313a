import ErrorQuery.Scan.Event
import ErrorQuery.Text.Characters
import ErrorQuery.Token.Rule

/-!
# Scanning from token to token

The sequential scan reads one token behind the other.  It skips blanks; at any other character
it takes the first rule of the table that fits there, and where none does, everything up to the
next blank is one invalid token.  So nothing but blanks is ever passed over.
-/

set_option autoImplicit false

namespace ErrorQuery.Sequential

open Text

/-- Whether a character is not blank. -/
def isSolid (c : Char) : Bool :=
  !isBlank c

/-- The token of the first rule in the table that fits at the given place. -/
def ruleToken? (position : Nat) (cs : List Char) : Option Token :=
  Rule.table.findSome? (·.tokenAt? position cs)

/-- The invalid token at the given place: everything up to the next blank. -/
def invalidToken (position : Nat) (cs : List Char) : Token :=
  let run := cs.takeWhile isSolid
  ⟨.invalid, String.ofList run, ⟨position, position + byteLength run⟩⟩

/-- The token that begins at the given place, where no blank stands. -/
def tokenAt (position : Nat) (cs : List Char) : Token :=
  (ruleToken? position cs).getD (invalidToken position cs)

/-- The tokens of a text which begins at the byte `position` and of which everything before
the byte `free` belongs to an earlier token. -/
def scan (free position : Nat) : List Char → List Event
  | [] => []
  | c :: cs =>
      let next := position + c.utf8Size
      if position < free || isBlank c then scan free next cs
      else
        let token := tokenAt position (c :: cs)
        .accepted token :: scan token.span.stop next cs

/-- The events of scanning a whole text. -/
def events (cs : List Char) : List Event :=
  scan 0 0 cs

end ErrorQuery.Sequential
