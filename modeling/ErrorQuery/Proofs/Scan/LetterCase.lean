import ErrorQuery.Proofs.Scan.Origin
import ErrorQuery.Proofs.Text.LetterCase

/-!
# Tokens of texts that differ in letter case only

Every pattern takes as much of a text as of one that differs from it in letter case only
(`Pattern.width?_eq`), so at every place the same rules take the same stretch.  A scan therefore
goes through the same states in both texts (`Scanner.IgnoresCase`), and its tokens differ in the
letter case of their values only (`Strategy.sameButCase_tokenize`).
-/

set_option autoImplicit false

namespace ErrorQuery

open Text

/-- Tokens of one kind at one place whose values differ in letter case only. -/
structure Token.SameButCase (token token' : Token) : Prop where
  kind : token.kind = token'.kind
  span : token.span = token'.span
  value : SameTextButCase token.value.toList token'.value.toList

/-! ### Patterns -/

/-- A slot fits letters in either case. -/
theorem Slot.fits_eq (slot : Slot) {c d : Char} (h : SameButCase c d) :
    slot.fits c = slot.fits d := by
  cases slot with
  | letter l => rw [fits, fits, sameLetter, sameLetter, h.fold_eq]
  | digit => exact h.isDecimalDigit_eq

/-- A shape fits texts in any case of the letters. -/
theorem Shape.fits_eq (shape : Shape) {cs ds : List Char} (h : SameTextButCase cs ds) :
    shape.fits cs = shape.fits ds := by
  induction shape generalizing cs ds with
  | nil => simp [fits]
  | cons slot shape ih =>
      cases h with
      | nil => rfl
      | cons hc hrest => rw [fits, fits, slot.fits_eq hc, ih hrest]

namespace Pattern

/-- A quote is no letter, so it stands in both texts or in neither. -/
theorem isUnquoted_eq {c d : Char} (h : SameButCase c d) : isUnquoted c = isUnquoted d := by
  refine h.congr_of_letters (a := true) fun c hc => ?_
  have hne : c ≠ '\'' := by
    rintro rfl
    revert hc
    decide
  simp [isUnquoted, hne]

/-- The case of letters does not change where a quoted text ends. -/
theorem width?_quoted_eq {cs ds : List Char} (h : SameTextButCase cs ds) :
    Pattern.quoted.width? cs = Pattern.quoted.width? ds := by
  cases h with
  | nil => rfl
  | @cons c d cs ds hc hrest =>
      by_cases hquote : c = '\''
      · obtain rfl : '\'' = d := by
          rw [hquote] at hc
          exact hc.eq_of_not_isLetter (by decide)
        have hinside := (SameTextButCase.takeWhile isUnquoted_eq hrest).length_eq
        simp only [hquote, width?, hinside, hrest.length_eq]
      · have hquote' : d ≠ '\'' := by
          rintro rfl
          exact hquote (Eq.symm (SameButCase.eq_of_not_isLetter (Eq.symm hc) (by decide)))
        simp [width?, hquote, hquote']

/-- A pattern takes equally much of two texts that differ in letter case only. -/
theorem width?_eq (pattern : Pattern) {cs ds : List Char} (h : SameTextButCase cs ds) :
    pattern.width? cs = pattern.width? ds := by
  cases pattern with
  | shapes alternatives =>
      have hfits : (fun shape : Shape => shape.fits cs) = fun shape : Shape => shape.fits ds := by
        funext shape
        exact shape.fits_eq h
      simp only [width?, hfits]
  | quoted => exact width?_quoted_eq h
  | digitRun =>
      have hrun := (h.takeWhile SameButCase.isDecimalDigit_eq).length_eq
      simp only [width?, List.isEmpty_iff_length_eq_zero, hrun]

/-- The values of texts are the same but for the case of the letters. -/
theorem sameButCase_value (pattern : Pattern) {cs ds : List Char} (h : SameTextButCase cs ds) :
    SameTextButCase (pattern.value cs) (pattern.value ds) := by
  cases pattern with
  | shapes _ => exact h
  | digitRun => exact h
  | quoted =>
      have hinside : SameTextButCase (cs.drop 1) (ds.drop 1) := List.forall₂_drop 1 h
      rw [value, value, List.dropLast_eq_take, List.dropLast_eq_take, hinside.length_eq]
      exact List.forall₂_take _ hinside

end Pattern

/-- A rule makes tokens of both texts, at the same place, or of neither. -/
theorem Rule.sameButCase_tokenAt? (rule : Rule) (position : Nat) {cs ds : List Char}
    (h : SameTextButCase cs ds) :
    Option.Rel Token.SameButCase (rule.tokenAt? position cs) (rule.tokenAt? position ds) := by
  rw [tokenAt?, tokenAt?, rule.pattern.width?_eq h]
  cases rule.pattern.width? ds with
  | none => exact .none
  | some width =>
      have htaken : SameTextButCase (cs.take width) (ds.take width) := List.forall₂_take width h
      refine .some ⟨rfl, ?_, ?_⟩
      · simp only [htaken.byteLength_eq]
      · simp only [String.toList_ofList]
        exact rule.pattern.sameButCase_value htaken

/-- If of each candidate both sides or neither find something, they first find the same. -/
theorem findSome?_rel {α β : Type} {R : β → β → Prop} {f g : α → Option β} (candidates : List α)
    (h : ∀ a, Option.Rel R (f a) (g a)) :
    Option.Rel R (candidates.findSome? f) (candidates.findSome? g) := by
  induction candidates with
  | nil => exact .none
  | cons a candidates ih =>
      have hfirst := h a
      rw [List.findSome?_cons, List.findSome?_cons]
      generalize f a = found at hfirst ⊢
      generalize g a = found' at hfirst ⊢
      cases hfirst with
      | none => exact ih
      | some hsame => exact .some hsame

/-! ### Walks -/

/-- Letter case makes no difference to the states of a walk, and to its tokens only in the letter
case of their values. -/
structure Scanner.IgnoresCase {σ : Type} (s : Scanner σ) : Prop where
  token? : ∀ (state : σ) (position : Nat) {cs ds : List Char}, SameTextButCase cs ds →
    Option.Rel Token.SameButCase (s.token? state position cs) (s.token? state position ds)
  next : ∀ (state : σ) (position : Nat) {cs ds : List Char}, SameTextButCase cs ds →
    s.next state position cs = s.next state position ds

/-- What holds of each step holds of the whole walk. -/
theorem Scanner.IgnoresCase.run {σ : Type} {s : Scanner σ} (hs : s.IgnoresCase) (state : σ)
    (position : Nat) {cs ds : List Char} (h : SameTextButCase cs ds) :
    List.Forall₂ Token.SameButCase (s.run state position cs) (s.run state position ds) := by
  induction h generalizing state position with
  | nil => exact .nil
  | @cons c d cs ds hc hrest ih =>
      have htoken := hs.token? state position (List.Forall₂.cons hc hrest)
      have hlater := ih (s.next state position (c :: cs)) (position + c.utf8Size)
      rw [Scanner.run, Scanner.run, ← hs.next state position (List.Forall₂.cons hc hrest),
        ← hc.utf8Size_eq]
      refine List.rel_append ?_ hlater
      generalize s.token? state position (c :: cs) = found at htoken ⊢
      generalize s.token? state position (d :: ds) = found' at htoken ⊢
      cases htoken with
      | none => exact .nil
      | some hsame => exact .cons hsame .nil

namespace Sequential

/-- The sequential scan finds the same token but for the case of the letters. -/
theorem sameButCase_tokenAt (position : Nat) {cs ds : List Char} (h : SameTextButCase cs ds) :
    (tokenAt position cs).SameButCase (tokenAt position ds) := by
  have hrule : Option.Rel Token.SameButCase (ruleToken? position cs) (ruleToken? position ds) :=
    findSome?_rel Rule.table fun rule => rule.sameButCase_tokenAt? position h
  have hsolid : ∀ {c d : Char}, SameButCase c d → isSolid c = isSolid d := by
    intro c d hc
    rw [isSolid, isSolid, hc.isBlank_eq]
  unfold tokenAt
  generalize ruleToken? position cs = found at hrule ⊢
  generalize ruleToken? position ds = found' at hrule ⊢
  cases hrule with
  | some hsame => exact hsame
  | none =>
      have hrun := h.takeWhile hsolid
      refine ⟨rfl, ?_, ?_⟩
      · simp only [Option.getD_none, invalidToken, hrun.byteLength_eq]
      · simpa only [Option.getD_none, invalidToken, String.toList_ofList] using hrun

/-- The sequential scan does not depend on the case of letters. -/
theorem ignoresCase_scanner : scanner.IgnoresCase := by
  have hblank : ∀ {cs ds : List Char}, SameTextButCase cs ds →
      cs.head?.any isBlank = ds.head?.any isBlank := by
    intro cs ds h
    cases h with
    | nil => rfl
    | cons hc _ => exact hc.isBlank_eq
  constructor
  · intro free position cs ds h
    simp only [scanner, hblank h]
    split
    · exact .none
    · exact .some (sameButCase_tokenAt position h)
  · intro free position cs ds h
    simp only [scanner, hblank h, (sameButCase_tokenAt position h).span]

end Sequential

namespace Precedence

/-- A cursor meets the same token but for the case of the letters. -/
theorem sameButCase_hit? (cursor : Cursor) (position : Nat) {cs ds : List Char}
    (h : SameTextButCase cs ds) :
    Option.Rel Token.SameButCase (cursor.hit? position cs) (cursor.hit? position ds) := by
  unfold Cursor.hit?
  split
  · exact cursor.rule.sameButCase_tokenAt? position h
  · exact .none

/-- A cursor passes a place alike in any case of the letters. -/
theorem pass_eq (cursor : Cursor) (position : Nat) {cs ds : List Char}
    (h : SameTextButCase cs ds) : cursor.pass position cs = cursor.pass position ds := by
  have hhit := sameButCase_hit? cursor position h
  unfold Cursor.pass
  generalize cursor.hit? position cs = found at hhit ⊢
  generalize cursor.hit? position ds = found' at hhit ⊢
  cases hhit with
  | none => rfl
  | some hsame => simp only [hsame.span]

/-- The precedence scan finds the same token but for the case of the letters. -/
theorem sameButCase_token? (state : State) (position : Nat) {cs ds : List Char}
    (h : SameTextButCase cs ds) :
    Option.Rel Token.SameButCase (state.token? position cs) (state.token? position ds) := by
  unfold State.token?
  split
  · exact .none
  · exact findSome?_rel state.cursors fun cursor => sameButCase_hit? cursor position h

/-- The precedence scan does not depend on the case of letters. -/
theorem ignoresCase_scanner : scanner.IgnoresCase := by
  constructor
  · exact fun state position _ _ h => sameButCase_token? state position h
  · intro state position cs ds h
    have hpass : (fun cursor : Cursor => cursor.pass position cs) =
        fun cursor : Cursor => cursor.pass position ds := by
      funext cursor
      exact pass_eq cursor position h
    have hstop : (state.token? position cs).map (·.span.stop) =
        (state.token? position ds).map (·.span.stop) := by
      have htoken := sameButCase_token? state position h
      generalize state.token? position cs = found at htoken ⊢
      generalize state.token? position ds = found' at htoken ⊢
      cases htoken with
      | none => rfl
      | some hsame => rw [Option.map_some, Option.map_some, hsame.span]
    simp only [scanner, hpass, hstop]

end Precedence

/-! ### Both strategies -/

namespace Strategy

/-- The tokens of texts that differ in the case of letters do not differ otherwise. -/
theorem sameButCase_body (strategy : Strategy) {cs ds : List Char} (h : SameTextButCase cs ds) :
    List.Forall₂ Token.SameButCase (strategy.body cs) (strategy.body ds) := by
  cases strategy with
  | sequential => exact Sequential.ignoresCase_scanner.run 0 0 h
  | precedence => exact Precedence.ignoresCase_scanner.run Precedence.initial 0 h

/-- The tokens of two texts that differ in letter case only do so as well. -/
theorem sameButCase_tokenize (strategy : Strategy) {text text' : String}
    (h : SameTextButCase text.toList text'.toList) :
    List.Forall₂ Token.SameButCase (strategy.tokenize text) (strategy.tokenize text') := by
  rw [tokenize_eq_body, tokenize_eq_body, h.byteLength_eq]
  refine List.rel_append (strategy.sameButCase_body h) ?_
  exact .cons ⟨rfl, rfl, .refl _⟩ .nil

end Strategy

end ErrorQuery
