import ErrorQuery.Proofs.Token.Takes
import ErrorQuery.Scan.Strategy

/-!
# Scans as walks with a state

Every scan walks along a text character by character.  At each place it may make a token, and it
carries a state on to the next place: `Scanner` is such a walk, `Scanner.run` its tokens.  A walk
over two texts one behind the other splits into the tokens begun in the first (`Scanner.front`)
and a walk over the second from the state reached (`Scanner.after`).

Three scans are walks of this kind: that of a single cursor, the sequential scan, whose state is
the end of the last token, and the precedence scan, whose state are its cursors and the end of the
last token that counts.
-/

set_option autoImplicit false

namespace ErrorQuery

open Text

/-- A walk along a text. -/
structure Scanner (σ : Type) where
  /-- The token made at a place, given the state, the place and the text from there on. -/
  token? : σ → Nat → List Char → Option Token
  /-- The state behind that place. -/
  next : σ → Nat → List Char → σ

namespace Scanner

variable {σ : Type} (s : Scanner σ)

/-- The tokens of a text which begins at the given byte. -/
def run (state : σ) (position : Nat) : List Char → List Token
  | [] => []
  | c :: cs =>
      (s.token? state position (c :: cs)).toList ++
        run (s.next state position (c :: cs)) (position + c.utf8Size) cs

/-- The state behind `before`, where `rest` follows. -/
def after (state : σ) (position : Nat) : List Char → List Char → σ
  | [], _ => state
  | c :: before, rest =>
      after (s.next state position (c :: (before ++ rest))) (position + c.utf8Size) before rest

/-- The tokens that begin in `before`, where `rest` follows. -/
def front (state : σ) (position : Nat) : List Char → List Char → List Token
  | [], _ => []
  | c :: before, rest =>
      (s.token? state position (c :: (before ++ rest))).toList ++
        front (s.next state position (c :: (before ++ rest))) (position + c.utf8Size) before rest

/-- There is nothing to find in an empty text. -/
@[simp] theorem run_nil (state : σ) (position : Nat) : s.run state position [] = [] := rfl

/-- A state stays the same along an empty text. -/
@[simp] theorem after_nil (state : σ) (position : Nat) (rest : List Char) :
    s.after state position [] rest = state := rfl

/-- No token begins in an empty text. -/
@[simp] theorem front_nil (state : σ) (position : Nat) (rest : List Char) :
    s.front state position [] rest = [] := rfl

/-- A walk splits where its text does. -/
theorem run_append (state : σ) (position : Nat) (before rest : List Char) :
    s.run state position (before ++ rest) =
      s.front state position before rest ++
        s.run (s.after state position before rest) (position + byteLength before) rest := by
  induction before generalizing state position with
  | nil => simp
  | cons c before ih =>
      simp only [List.cons_append, run, front, after, byteLength_cons, List.append_assoc]
      rw [ih, Nat.add_assoc]

/-- The state behind two texts is that behind the second one, from the state behind the first. -/
theorem after_append (state : σ) (position : Nat) (before middle rest : List Char) :
    s.after state position (before ++ middle) rest =
      s.after (s.after state position before (middle ++ rest)) (position + byteLength before)
        middle rest := by
  induction before generalizing state position with
  | nil => simp
  | cons c before ih =>
      simp only [List.cons_append, after, byteLength_cons, List.append_assoc]
      rw [ih, Nat.add_assoc]

/-- The state behind a further character is one step on. -/
theorem after_concat (state : σ) (position : Nat) (before : List Char) (c : Char)
    (rest : List Char) :
    s.after state position (before ++ [c]) rest =
      s.next (s.after state position before (c :: rest)) (position + byteLength before)
        (c :: rest) := by
  rw [after_append]
  rfl

end Scanner

/-! ### The three scans -/

/-- The walk of a single cursor. -/
def Cursor.scanner : Scanner Cursor where
  token? cursor position cs := cursor.hit? position cs
  next cursor position cs := cursor.pass position cs

/-- A cursor meets the tokens of its walk. -/
theorem Cursor.hits_eq_run (cursor : Cursor) (position : Nat) (cs : List Char) :
    cursor.hits position cs = scanner.run cursor position cs := by
  induction cs generalizing cursor position with
  | nil => rfl
  | cons c cs ih =>
      simp only [Cursor.hits, Scanner.run, ih]
      cases h : cursor.hit? position (c :: cs) with
      | none => simp [scanner, h]
      | some token => simp [scanner, h]

namespace Sequential

/-- The sequential scan as a walk; the state is the end of the last token. -/
def scanner : Scanner Nat where
  token? free position cs :=
    if position < free ∨ cs.head?.any isBlank then none else some (tokenAt position cs)
  next free position cs :=
    if position < free ∨ cs.head?.any isBlank then free else (tokenAt position cs).span.stop

/-- Blanks and what lies inside a token are passed over. -/
theorem run_skip {free position : Nat} {c : Char} (cs : List Char)
    (h : position < free ∨ isBlank c = true) :
    scanner.run free position (c :: cs) = scanner.run free (position + c.utf8Size) cs := by
  have hquiet : position < free ∨ (c :: cs).head?.any isBlank = true := by simpa using h
  rw [Scanner.run, scanner]
  dsimp only
  rw [if_pos hquiet, if_pos hquiet, Option.toList_none, List.nil_append]

/-- Behind the last token a character that is not blank begins a token. -/
theorem run_cons {free position : Nat} {c : Char} (cs : List Char) (hfree : free ≤ position)
    (hc : isBlank c = false) :
    scanner.run free position (c :: cs) =
      tokenAt position (c :: cs) ::
        scanner.run (tokenAt position (c :: cs)).span.stop (position + c.utf8Size) cs := by
  have hbegin : ¬ (position < free ∨ (c :: cs).head?.any isBlank = true) := by
    simp [hc, hfree]
  rw [Scanner.run, scanner]
  dsimp only
  rw [if_neg hbegin, if_neg hbegin, Option.toList_some, List.singleton_append]

/-- The sequential scan makes the tokens of its walk. -/
theorem tokens_scan_eq_run (free position : Nat) (cs : List Char) :
    Event.tokens (scan free position cs) = scanner.run free position cs := by
  induction cs generalizing free position with
  | nil => rfl
  | cons c cs ih =>
      by_cases h : position < free ∨ isBlank c = true
      · rw [run_skip cs h, ← ih]
        simp [scan, h]
      · have hfree : free ≤ position := by omega
        have hc : isBlank c = false := by simp_all
        rw [run_cons cs hfree hc, ← ih]
        simp [scan, hc, Nat.not_lt.mpr hfree]

end Sequential

namespace Precedence

/-- The cursors of a precedence scan and the end of the last token that counts. -/
structure State where
  cursors : List Cursor
  last : Nat

/-- The token that leads at a place, if it counts there. -/
def State.token? (state : State) (position : Nat) (cs : List Char) : Option Token :=
  if position < state.last then none else state.cursors.findSome? (·.hit? position cs)

/-- The precedence scan as a walk. -/
def scanner : Scanner State where
  token? := State.token?
  next state position cs :=
    ⟨state.cursors.map (·.pass position cs),
      ((state.token? position cs).map (·.span.stop)).getD state.last⟩

/-- A cursor meets tokens at the place where it stands. -/
theorem start_of_hit? {cursor : Cursor} {position : Nat} {cs : List Char} {token : Token}
    (h : cursor.hit? position cs = some token) : token.span.start = position := by
  rw [Cursor.hit?] at h
  split at h
  · obtain ⟨taken, rest, -, -, rfl⟩ := Rule.exists_takes_of_tokenAt? h
    rfl
  · contradiction

/-- The precedence scan accepts the tokens of its walk. -/
theorem tokens_sweep_eq_run (cursors : List Cursor) (last stop position : Nat) (cs : List Char) :
    Event.tokens (sweep last stop (leaders cursors position cs)) =
      scanner.run ⟨cursors, last⟩ position cs := by
  induction cs generalizing cursors last position with
  | nil => rfl
  | cons c cs ih =>
      simp only [leaders, Scanner.run]
      cases h : cursors.findSome? (·.hit? position (c :: cs)) with
      | none => simp [scanner, State.token?, h, ih]
      | some token =>
          obtain ⟨cursor, -, hit⟩ := List.exists_of_findSome?_eq_some h
          have hstart := start_of_hit? hit
          by_cases hlt : position < last
          · simp [sweep, scanner, State.token?, hstart, hlt, ih]
          · simp [sweep, scanner, State.token?, hstart, hlt, h, ih]

/-- The state in which a precedence scan begins. -/
def initial : State :=
  ⟨Rule.table.map (⟨·, 0⟩), 0⟩

end Precedence

/-- The tokens of a text by either strategy are those of its walk. -/
theorem Strategy.tokenize_sequential (text : String) :
    Strategy.sequential.tokenize text =
      Sequential.scanner.run 0 0 text.toList ++ [.terminator (byteLength text.toList)] := by
  simp only [tokenize, events, Sequential.events, Sequential.tokens_scan_eq_run]

/-- The tokens of the precedence strategy are what its scanner finds, and the end. -/
theorem Strategy.tokenize_precedence (text : String) :
    Strategy.precedence.tokenize text =
      Precedence.scanner.run Precedence.initial 0 text.toList ++
        [.terminator (byteLength text.toList)] := by
  simp only [tokenize, events, Precedence.events, Precedence.tokens_sweep_eq_run,
    Rule.ranked_eq_table, Precedence.initial]

end ErrorQuery
