import ErrorQuery.Text.Bytes
import ErrorQuery.Token.Basic
import ErrorQuery.Token.Pattern

/-!
# The rules of the language

A rule says which pattern makes a token of which kind.  `Rule.table` lists the rules in the
order in which they are tried at one place of a text: `not in` stands before `in` and
`not like` before `like`, and a moment in time before a number.  Where a rule is looked for
everywhere in a text, its precedence ranks it against the others, the lowest first and rules
of one precedence in the order of the table.
-/

set_option autoImplicit false

namespace ErrorQuery

open Text

/-- A kind of token and how its text looks. -/
structure Rule where
  kind : Kind
  pattern : Pattern
  precedence : Nat
  deriving DecidableEq, Repr

namespace Rule

/-- The rules, in the order in which they are tried. -/
def table : List Rule :=
  [⟨.connector .and, .words ["and"], 1⟩,
    ⟨.connector .or, .words ["or"], 1⟩,
    ⟨.between, .words ["between"], 1⟩,
    ⟨.matching, .words ["match"], 1⟩,
    ⟨.limit, .words ["limit"], 1⟩,
    ⟨.operator .noneOf, .words ["not in"], 1⟩,
    ⟨.operator .oneOf, .words ["in"], 1⟩,
    ⟨.operator .notLike, .words ["not like"], 1⟩,
    ⟨.operator .like, .words ["like"], 1⟩,
    ⟨.field .application, .words ["application", "app"], 1⟩,
    ⟨.field .exceptionType, .words ["exception", "ex"], 1⟩,
    ⟨.field .fingerprint, .words ["fingerprint"], 1⟩,
    ⟨.field .message, .words ["message", "msg"], 1⟩,
    ⟨.field .stackFrame, .words ["stackframe", "sf"], 1⟩,
    ⟨.operator .equals, .words ["="], 1⟩,
    ⟨.operator .notEquals, .words ["!="], 1⟩,
    ⟨.opening, .words ["("], 1⟩,
    ⟨.closing, .words [")"], 1⟩,
    ⟨.comma, .words [","], 1⟩,
    ⟨.text, .quoted, 1⟩,
    ⟨.dateTime, .timestamp, 2⟩,
    ⟨.number, .digitRun, 2⟩]

/-- Puts a rule in front of the first rule whose precedence is not lower. -/
def insertRanked (rule : Rule) : List Rule → List Rule
  | [] => [rule]
  | r :: rules =>
      if rule.precedence ≤ r.precedence then rule :: r :: rules
      else r :: insertRanked rule rules

/-- The rules by rank: the lowest precedence first, and in the order of the table within one
precedence. -/
def ranked : List Rule :=
  table.foldr insertRanked []

/-- The table lists the rules by rank. -/
theorem ranked_eq_table : ranked = table := by
  decide

/-- The place in the table of the rule for a kind, if the kind has one. -/
def position? (kind : Kind) : Option Nat :=
  table.findIdx? (·.kind == kind)

/-- The rule for a kind, if the kind has one. -/
def ofKind? (kind : Kind) : Option Rule :=
  table.find? (·.kind == kind)

/-- The token that a rule reads at the front of a text which begins at the given byte. -/
def tokenAt? (rule : Rule) (position : Nat) (cs : List Char) : Option Token :=
  (rule.pattern.width? cs).map fun width =>
    let taken := cs.take width
    ⟨rule.kind, String.ofList (rule.pattern.value taken),
      ⟨position, position + byteLength taken⟩⟩

end Rule

end ErrorQuery
