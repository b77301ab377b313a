import ErrorQuery.Proofs.Scan.Blocking
import Mathlib.Data.List.Forall2

/-!
# Scans do not depend on where a text begins

Two walks over the same text that begin at different bytes make the same tokens, each walk at its
own bytes, if the marks in their states lie equally far ahead of where they stand (`Aligned`).  A
mark is a byte up to which the text is taken: the end of the last token, or the byte at which a
cursor is free.  Marks that have been passed are aligned whatever they are, so between two tokens
the walks have nothing to remember.
-/

set_option autoImplicit false

namespace ErrorQuery

open Text

/-- The token in a text with `distance` more bytes in front. -/
def Token.shift (distance : Nat) (token : Token) : Token :=
  { token with span := ⟨token.span.start + distance, token.span.stop + distance⟩ }

/-- A shift by nothing changes nothing. -/
theorem Token.map_shift_zero (tokens : List Token) : tokens.map (Token.shift 0) = tokens := by
  have hshift : Token.shift 0 = id := rfl
  rw [hshift, List.map_id]

/-- Two marks lie equally far ahead of two positions. -/
def Aligned (mark position mark' position' : Nat) : Prop :=
  ∀ distance, mark ≤ position + distance ↔ mark' ≤ position' + distance

namespace Aligned

variable {mark position mark' position' : Nat}

/-- Marks that have been passed lie equally far ahead, as they lie behind. -/
theorem passed (h : mark ≤ position) (h' : mark' ≤ position') :
    Aligned mark position mark' position' := by
  intro distance
  omega

/-- Marks at the same distance ahead are aligned. -/
theorem ahead (position position' distance : Nat) :
    Aligned (position + distance) position (position' + distance) position' := by
  intro k
  omega

/-- Marks stay aligned when both positions move on by the same size. -/
theorem step (h : Aligned mark position mark' position') (size : Nat) :
    Aligned mark (position + size) mark' (position' + size) := by
  intro distance
  have hfar := h (size + distance)
  omega

/-- Of aligned marks both have been reached or neither has. -/
theorem le_iff (h : Aligned mark position mark' position') :
    mark ≤ position ↔ mark' ≤ position' := by
  have hhere := h 0
  omega

/-- Of aligned marks both lie ahead or neither does. -/
theorem lt_iff (h : Aligned mark position mark' position') :
    position < mark ↔ position' < mark' := by
  have hle := h.le_iff
  omega

end Aligned

/-- Walks whose states stay related make tokens at the same places of their texts. -/
theorem Scanner.map_shift_run {σ : Type} {s : Scanner σ} {R : σ → Nat → σ → Nat → Prop}
    {k k' : Nat}
    (htoken : ∀ {state position state' position'} (cs : List Char),
      R state position state' position' → position + k = position' + k' →
        (s.token? state position cs).map (Token.shift k) =
          (s.token? state' position' cs).map (Token.shift k'))
    (hnext : ∀ {state position state' position'} (c : Char) (cs : List Char),
      R state position state' position' →
        R (s.next state position (c :: cs)) (position + c.utf8Size)
          (s.next state' position' (c :: cs)) (position' + c.utf8Size))
    {state state' : σ} {position position' : Nat} (hstate : R state position state' position')
    (hposition : position + k = position' + k') (cs : List Char) :
    (s.run state position cs).map (Token.shift k) =
      (s.run state' position' cs).map (Token.shift k') := by
  induction cs generalizing state position state' position' with
  | nil => rfl
  | cons c cs ih =>
      have hhere := htoken (c :: cs) hstate hposition
      have hlater := ih (hnext c cs hstate) (by omega)
      have hlist (o : Option Token) (f : Token → Token) : o.toList.map f = (o.map f).toList := by
        cases o <;> rfl
      rw [run, run, List.map_append, List.map_append, hlater, hlist, hlist, hhere]

/-! ### The sequential scan -/

/-- A rule takes the same further on, with the token shifted. -/
theorem Rule.tokenAt?_add (rule : Rule) (position k : Nat) (cs : List Char) :
    rule.tokenAt? (position + k) cs = (rule.tokenAt? position cs).map (Token.shift k) := by
  unfold tokenAt?
  cases rule.pattern.width? cs with
  | none => rfl
  | some w =>
      simp only [Option.map_some, Token.shift, Option.some.injEq, Token.mk.injEq, Span.mk.injEq,
        true_and]
      omega

namespace Sequential

/-- The sequential scan finds the same token further on, shifted. -/
theorem tokenAt_add (position k : Nat) (cs : List Char) :
    tokenAt (position + k) cs = (tokenAt position cs).shift k := by
  have hrule : ruleToken? (position + k) cs = (ruleToken? position cs).map (Token.shift k) := by
    unfold ruleToken?
    induction Rule.table with
    | nil => rfl
    | cons rule rules ih =>
        rw [List.findSome?_cons, List.findSome?_cons, Rule.tokenAt?_add]
        cases rule.tokenAt? position cs with
        | none => exact ih
        | some token => rfl
  unfold tokenAt
  rw [hrule]
  cases ruleToken? position cs with
  | none =>
      simp only [Option.map_none, Option.getD_none, invalidToken, Token.shift, Token.mk.injEq,
        Span.mk.injEq, true_and]
      omega
  | some token => rfl

/-- Two aligned walks of the sequential scan. -/
theorem map_shift_run {free position free' position' k k' : Nat}
    (h : Aligned free position free' position') (hposition : position + k = position' + k')
    (cs : List Char) :
    (scanner.run free position cs).map (Token.shift k) =
      (scanner.run free' position' cs).map (Token.shift k') := by
  have hstop (position : Nat) (cs : List Char) :
      (tokenAt position cs).span.stop = position + (tokenAt 0 cs).span.stop := by
    have hadd := tokenAt_add 0 position cs
    rw [Nat.zero_add] at hadd
    rw [hadd]
    exact Nat.add_comm _ _
  refine Scanner.map_shift_run (s := scanner) (R := Aligned) ?_ ?_ h hposition cs
  · intro free position free' position' cs hfree hpos
    simp only [scanner, hfree.lt_iff]
    split
    · rfl
    · rw [Option.map_some, Option.map_some, ← tokenAt_add, ← tokenAt_add, hpos]
  · intro free position free' position' c cs hfree
    simp only [scanner, hfree.lt_iff]
    split
    · exact hfree.step c.utf8Size
    · rw [hstop position, hstop position']
      exact (Aligned.ahead position position' _).step c.utf8Size

/-- Between two tokens the scan begins afresh. -/
theorem run_eq_map_shift {free position : Nat} (hfree : free ≤ position) (cs : List Char) :
    scanner.run free position cs = (scanner.run 0 0 cs).map (Token.shift position) := by
  have haligned : Aligned free position 0 0 := .passed hfree (Nat.le_refl 0)
  have hrun := map_shift_run haligned (k := 0) (by omega : position + 0 = 0 + position) cs
  rwa [Token.map_shift_zero] at hrun

end Sequential

/-! ### The precedence scan -/

namespace Cursor

/-- Cursors of one rule that are equally far from being free. -/
structure AlignedTo (cursor cursor' : Cursor) (position position' : Nat) : Prop where
  rule : cursor.rule = cursor'.rule
  free : Aligned cursor.free position cursor'.free position'

namespace AlignedTo

variable {cursor cursor' : Cursor} {position position' : Nat}

/-- Aligned cursors meet the same token, each shifted to its place. -/
theorem hit? (h : cursor.AlignedTo cursor' position position') {k k' : Nat}
    (hposition : position + k = position' + k') (cs : List Char) :
    (cursor.hit? position cs).map (Token.shift k) =
      (cursor'.hit? position' cs).map (Token.shift k') := by
  unfold Cursor.hit?
  simp only [h.free.le_iff, h.rule]
  split
  · rw [← Rule.tokenAt?_add, ← Rule.tokenAt?_add, hposition]
  · rfl

/-- Aligned cursors stay aligned when they pass a character. -/
theorem pass (h : cursor.AlignedTo cursor' position position') (c : Char) (cs : List Char) :
    (cursor.pass position (c :: cs)).AlignedTo (cursor'.pass position' (c :: cs))
      (position + c.utf8Size) (position' + c.utf8Size) := by
  refine ⟨by rw [rule_pass, rule_pass, h.rule], ?_⟩
  have hrule := h.rule
  by_cases hfree : cursor.free ≤ position
  · have hfree' := h.free.le_iff.mp hfree
    cases htoken : cursor.rule.tokenAt? position (c :: cs) with
    | none =>
        have hnone := Rule.tokenAt?_eq_none_iff.mp htoken
        rw [pass_of_width?_eq_none hnone, pass_of_width?_eq_none (by rwa [← hrule])]
        exact h.free.step c.utf8Size
    | some token =>
        obtain ⟨taken, rest, heq, ht, -⟩ := Rule.exists_takes_of_tokenAt? htoken
        rw [heq, pass_of_takes hfree ht, pass_of_takes hfree' (by rwa [← hrule])]
        exact (Aligned.ahead position position' _).step c.utf8Size
  · have hfree' : ¬ cursor'.free ≤ position' := fun hle => hfree (h.free.le_iff.mpr hle)
    rw [pass_of_lt (by omega), pass_of_lt (by omega)]
    exact h.free.step c.utf8Size

end AlignedTo

/-- Of aligned cursors the first that meet a token meet the same one. -/
theorem map_shift_findSome? {cursors cursors' : List Cursor} {position position' k k' : Nat}
    (h : List.Forall₂ (fun cursor cursor' => cursor.AlignedTo cursor' position position')
      cursors cursors')
    (hposition : position + k = position' + k') (cs : List Char) :
    (cursors.findSome? (·.hit? position cs)).map (Token.shift k) =
      (cursors'.findSome? (·.hit? position' cs)).map (Token.shift k') := by
  induction h with
  | nil => rfl
  | @cons cursor cursor' cursors cursors' hcursor _ ih =>
      have hhit := hcursor.hit? hposition cs
      rw [List.findSome?_cons, List.findSome?_cons]
      cases hleft : cursor.hit? position cs with
      | none =>
          rw [hleft, Option.map_none, eq_comm, Option.map_eq_none_iff] at hhit
          rw [hhit]
          exact ih
      | some token =>
          rw [hleft, Option.map_some, eq_comm, Option.map_eq_some_iff] at hhit
          obtain ⟨token', hright, hshift⟩ := hhit
          rw [hright]
          exact congrArg some hshift.symm

end Cursor

namespace Precedence

/-- States of which every mark is equally far ahead. -/
structure State.AlignedTo (state : State) (position : Nat) (state' : State) (position' : Nat) :
    Prop where
  cursors : List.Forall₂ (fun cursor cursor' => cursor.AlignedTo cursor' position position')
    state.cursors state'.cursors
  last : Aligned state.last position state'.last position'

namespace State.AlignedTo

variable {state state' : State} {position position' : Nat}

/-- Aligned states find the same token, each shifted to its place. -/
theorem token? (h : state.AlignedTo position state' position') {k k' : Nat}
    (hposition : position + k = position' + k') (cs : List Char) :
    (state.token? position cs).map (Token.shift k) =
      (state'.token? position' cs).map (Token.shift k') := by
  unfold State.token?
  simp only [h.last.lt_iff]
  split
  · rfl
  · exact Cursor.map_shift_findSome? h.cursors hposition cs

/-- Aligned states stay aligned from step to step. -/
theorem next (h : state.AlignedTo position state' position') (c : Char) (cs : List Char) :
    (scanner.next state position (c :: cs)).AlignedTo (position + c.utf8Size)
      (scanner.next state' position' (c :: cs)) (position' + c.utf8Size) := by
  refine ⟨?_, ?_⟩
  · unfold scanner
    rw [List.forall₂_map_left_iff, List.forall₂_map_right_iff]
    exact h.cursors.imp fun cursor cursor' hcursor => hcursor.pass c cs
  · -- either both make a token, which ends equally far ahead, or neither does
    have htoken := @State.AlignedTo.token? state state' position position' h position' position
      (Nat.add_comm _ _) (c :: cs)
    show Aligned (((state.token? position (c :: cs)).map (·.span.stop)).getD state.last) _
      (((state'.token? position' (c :: cs)).map (·.span.stop)).getD state'.last) _
    cases hleft : state.token? position (c :: cs) with
    | none =>
        rw [hleft, Option.map_none, eq_comm, Option.map_eq_none_iff] at htoken
        rw [htoken]
        exact h.last.step c.utf8Size
    | some token =>
        rw [hleft, Option.map_some, eq_comm, Option.map_eq_some_iff] at htoken
        obtain ⟨token', hright, hshift⟩ := htoken
        have hstop : token'.span.stop + position = token.span.stop + position' :=
          congrArg (fun t : Token => t.span.stop) hshift
        rw [hright, Option.map_some, Option.map_some, Option.getD_some, Option.getD_some]
        intro distance
        omega

end State.AlignedTo

/-- Two aligned walks of the precedence scan. -/
theorem map_shift_run {state state' : State} {position position' k k' : Nat}
    (h : state.AlignedTo position state' position') (hposition : position + k = position' + k')
    (cs : List Char) :
    (scanner.run state position cs).map (Token.shift k) =
      (scanner.run state' position' cs).map (Token.shift k') := by
  refine Scanner.map_shift_run (s := scanner) (R := State.AlignedTo) ?_ ?_ h hposition cs
  · intro state position state' position' cs hstate hpos
    exact hstate.token? hpos cs
  · intro state position state' position' c cs hstate
    exact hstate.next c cs

/-- Where every cursor is free and the last token has ended, the scan begins afresh. -/
theorem run_eq_map_shift {state : State} {position : Nat}
    (hrules : state.cursors.map (·.rule) = Rule.table)
    (hfree : ∀ cursor ∈ state.cursors, cursor.free ≤ position) (hlast : state.last ≤ position)
    (cs : List Char) :
    scanner.run state position cs = (scanner.run initial 0 cs).map (Token.shift position) := by
  have haligned : state.AlignedTo position initial 0 := by
    refine ⟨?_, .passed hlast (Nat.le_refl 0)⟩
    rw [initial, ← hrules, List.map_map, List.forall₂_map_right_iff, List.forall₂_same]
    intro cursor hcursor
    exact ⟨rfl, .passed (hfree cursor hcursor) (Nat.le_refl 0)⟩
  have hrun := map_shift_run haligned (k := 0) (by omega : position + 0 = 0 + position) cs
  rwa [Token.map_shift_zero] at hrun

end Precedence

end ErrorQuery
