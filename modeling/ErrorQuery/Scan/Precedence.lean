import ErrorQuery.Scan.Event
import ErrorQuery.Token.Rule

/-!
# Scanning for the best-ranked tokens

The precedence scan looks for every rule everywhere in a text.  A cursor walks along the text
and reports the tokens of one rule from left to right: behind a token the rule is free again
only where that token ends, so the tokens of one cursor never overlap.  Of the tokens that begin
at one place the best-ranked leads; going from left to right, a leading token counts unless it
begins inside one that already does.  What no token covers is left aside as a gap.
-/

set_option autoImplicit false

namespace ErrorQuery

/-! ## One rule, looked for everywhere in a text -/

/-- A rule together with the first byte at which it may begin another token. -/
structure Cursor where
  rule : Rule
  free : Nat
  deriving DecidableEq, Repr

namespace Cursor

/-- The token that begins at the given place, unless the rule is still taken up by an earlier
one. -/
def hit? (cursor : Cursor) (position : Nat) (cs : List Char) : Option Token :=
  if cursor.free ≤ position then cursor.rule.tokenAt? position cs else none

/-- The cursor after it has passed the given place. -/
def pass (cursor : Cursor) (position : Nat) (cs : List Char) : Cursor :=
  match cursor.hit? position cs with
  | some token => { cursor with free := token.span.stop }
  | none => cursor

/-- The tokens that the cursor meets in a text which begins at the given byte. -/
def hits (cursor : Cursor) (position : Nat) : List Char → List Token
  | [] => []
  | c :: cs =>
      let later := hits (cursor.pass position (c :: cs)) (position + c.utf8Size) cs
      match cursor.hit? position (c :: cs) with
      | some token => token :: later
      | none => later

end Cursor

/-- The tokens of a rule in a text: from left to right, each the first that begins at or
behind the end of the one before. -/
def Rule.findAll (rule : Rule) (cs : List Char) : List Token :=
  Cursor.hits ⟨rule, 0⟩ 0 cs

/-! ## All rules at once -/

namespace Precedence

open Text

/-- The best-ranked token at each place of a text where some cursor meets one; the cursors
stand in the order of their ranks. -/
def leaders (cursors : List Cursor) (position : Nat) : List Char → List Token
  | [] => []
  | c :: cs =>
      let passed := cursors.map (·.pass position (c :: cs))
      let later := leaders passed (position + c.utf8Size) cs
      match cursors.findSome? (·.hit? position (c :: cs)) with
      | some token => token :: later
      | none => later

/-- Accepts tokens from left to right, leaving out those that begin before the end `last` of
the one accepted before; `stop` is the end of the text. -/
def sweep (last stop : Nat) : List Token → List Event
  | [] => [.gap ⟨last, stop⟩]
  | token :: tokens =>
      if token.span.start < last then .overlapped token :: sweep last stop tokens
      else .gap ⟨last, token.span.start⟩ :: .accepted token :: sweep token.span.stop stop tokens

/-- The events of scanning a whole text. -/
def events (cs : List Char) : List Event :=
  sweep 0 (byteLength cs) (leaders (Rule.ranked.map (⟨·, 0⟩)) 0 cs)

end Precedence

end ErrorQuery
