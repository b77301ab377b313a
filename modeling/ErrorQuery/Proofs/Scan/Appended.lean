import ErrorQuery.Proofs.Scan.Lexemes
import ErrorQuery.Proofs.Scan.Places
import ErrorQuery.Proofs.Scan.Selection
import ErrorQuery.Proofs.Scan.SequentialCover

/-!
# Texts that are appended

What is appended to a text may change the tokens of the text, since a rule may read on into it.  A
text `StandsApart` if it begins with a blank and no rule takes anything of it unless it begins
there.  Then the tokens of a text with it behind are those of both, one behind the other
(`Strategy.body_append`), whatever the text ends in: a half-open quote, the front of a keyword, or
characters that no rule takes.

The clause of a limit stands apart (`standsApart_limitClause`).  Only `not in`, `not like` and moments
have a blank inside, and none of them goes on with the letters of `LIMIT`.
-/

set_option autoImplicit false

namespace ErrorQuery

open Text

/-- The text begins with a blank, and no rule that begins before it reads on into it. -/
structure StandsApart (suffix : List Char) : Prop where
  blank : ∃ c rest, suffix = c :: rest ∧ isBlank c = true
  width?_append : ∀ rule ∈ Rule.table, ∀ back, back ≠ [] →
    rule.pattern.width? (back ++ suffix) = rule.pattern.width? back

namespace StandsApart

variable {suffix : List Char}

/-- A rule takes the same before a text that stands apart. -/
theorem tokenAt?_append (h : StandsApart suffix) {rule : Rule} (hrule : rule ∈ Rule.table)
    {back : List Char} (hback : back ≠ []) (position : Nat) :
    rule.tokenAt? position (back ++ suffix) = rule.tokenAt? position back := by
  unfold Rule.tokenAt?
  rw [h.width?_append rule hrule back hback]
  cases hwidth : rule.pattern.width? back with
  | none => rfl
  | some w =>
      have htake : (back ++ suffix).take w = back.take w :=
        List.take_append_of_le_length (Pattern.width?_le hwidth)
      simp only [Option.map_some, htake]

end StandsApart

/-! ### Walks -/

/-- A walk that makes the same step whether or not the text is appended comes to its end as before
and goes on from there. -/
theorem Scanner.run_append_of_same {σ : Type} {s : Scanner σ} {I : σ → Prop} {suffix : List Char}
    (hsame : ∀ {state} (position : Nat) (c : Char) (cs : List Char), I state →
      s.token? state position (c :: (cs ++ suffix)) = s.token? state position (c :: cs) ∧
        s.next state position (c :: (cs ++ suffix)) = s.next state position (c :: cs))
    (hnext : ∀ state position cs, I state → I (s.next state position cs)) {state : σ}
    (hstate : I state) (position : Nat) (cs : List Char) :
    s.run state position (cs ++ suffix) =
      s.run state position cs ++
        s.run (s.after state position cs []) (position + byteLength cs) suffix := by
  induction cs generalizing state position with
  | nil => simp
  | cons c cs ih =>
      obtain ⟨htoken, hstep⟩ := hsame position c cs hstate
      have hrest := ih (hnext state position (c :: cs) hstate) (position + c.utf8Size)
      rw [List.cons_append, run, htoken, hstep, hrest, run, after, byteLength_cons,
        List.append_assoc, List.append_nil, Nat.add_assoc]

namespace Sequential

/-- A scan comes to the end of a text between two tokens. -/
theorem after_le (cs : List Char) : scanner.after 0 0 cs [] ≤ byteLength cs := by
  have hreach := forward.lt_reach_after_iff 0 0 cs []
  simp only [id_eq, Nat.zero_add, Nat.not_lt_zero, false_or, List.append_nil] at hreach
  refine Nat.not_lt.mp fun hlt => ?_
  obtain ⟨token, htoken, -, hstop⟩ := hreach.mp hlt
  have hstands := @Strategy.standsIn_of_mem_body .sequential cs token htoken
  have hle := hstands.stop_le
  omega

/-- The sequential scan finds the same token before a text that stands apart. -/
theorem tokenAt_append {suffix : List Char} (h : StandsApart suffix) {back : List Char}
    (hback : back ≠ []) (position : Nat) :
    tokenAt position (back ++ suffix) = tokenAt position back := by
  have hrule : ruleToken? position (back ++ suffix) = ruleToken? position back := by
    unfold ruleToken?
    exact findSome?_congr fun rule hmem => h.tokenAt?_append hmem hback position
  unfold tokenAt
  rw [hrule]
  cases ruleToken? position back with
  | some token => rfl
  | none =>
      -- an invalid token ends at the blank, if not before
      obtain ⟨c, rest, rfl, hc⟩ := h.blank
      have hsolid : isSolid c = false := by simp [isSolid, hc]
      simp only [Option.getD_none, invalidToken, takeWhile_before hsolid]

/-- The sequential scan goes on in a text that stands apart as if it began there. -/
theorem run_append {suffix : List Char} (h : StandsApart suffix) (cs : List Char) :
    scanner.run 0 0 (cs ++ suffix) =
      scanner.run 0 0 cs ++ (scanner.run 0 0 suffix).map (Token.shift (byteLength cs)) := by
  have hsame (free position : Nat) (c : Char) (cs : List Char) :
      scanner.token? free position (c :: (cs ++ suffix)) = scanner.token? free position (c :: cs) ∧
        scanner.next free position (c :: (cs ++ suffix)) =
          scanner.next free position (c :: cs) := by
    have htoken := tokenAt_append h (List.cons_ne_nil c cs) position
    rw [List.cons_append] at htoken
    by_cases hquiet : position < free ∨ isBlank c = true
    · simp [scanner, hquiet]
    · simp [scanner, hquiet, htoken]
  rw [Scanner.run_append_of_same (I := fun _ => True) (fun position c cs _ => hsame _ position c cs)
    (fun _ _ _ _ => trivial) trivial, Nat.zero_add, run_eq_map_shift (after_le cs)]

end Sequential

/-- At the end of a text every cursor is free. -/
theorem Rule.free_at_end (rule : Rule) (cs : List Char) :
    (rule.cursor cs []).free ≤ byteLength cs := by
  obtain hfree | ⟨earlier, front, back, rest, -, hrest, -, hback, -⟩ := cursor_cases rule cs []
  · exact hfree
  · obtain ⟨hempty, -⟩ := List.append_eq_nil_iff.mp hrest.symm
    exact absurd hempty hback

namespace Precedence

/-- A scan comes to the end of a text behind its last token. -/
theorem last_after_le (cs : List Char) : (scanner.after initial 0 cs []).last ≤ byteLength cs := by
  rw [last_after_le_iff]
  rintro token htoken ⟨-, hstop⟩
  rw [List.append_nil] at htoken
  have hle := (Strategy.standsIn_of_mem_body htoken).stop_le
  omega

/-- The precedence scan goes on in a text that stands apart as if it began there. -/
theorem run_append {suffix : List Char} (h : StandsApart suffix) (cs : List Char) :
    scanner.run initial 0 (cs ++ suffix) =
      scanner.run initial 0 cs ++
        (scanner.run initial 0 suffix).map (Token.shift (byteLength cs)) := by
  have hsame {state : State} (position : Nat) (c : Char) (cs : List Char)
      (hstate : state.OverTable) :=
    step_congr hstate fun _ hrule => h.tokenAt?_append hrule (List.cons_ne_nil c cs) position
  have hcursors := cursors_after cs []
  have hrules : (scanner.after initial 0 cs []).cursors.map (·.rule) = Rule.table := by
    rw [hcursors]
    exact map_rule_cursor cs []
  rw [Scanner.run_append_of_same hsame (fun _ position cs hstate => hstate.next position cs)
    overTable_initial, Nat.zero_add, run_eq_map_shift hrules ?_ (last_after_le cs)]
  intro cursor hcursor
  rw [hcursors] at hcursor
  obtain ⟨rule, -, rfl⟩ := List.mem_map.mp hcursor
  exact rule.free_at_end cs

end Precedence

/-- The tokens of a text with another behind it that stands apart are those of both. -/
theorem Strategy.body_append (strategy : Strategy) {suffix : List Char} (h : StandsApart suffix)
    (cs : List Char) :
    strategy.body (cs ++ suffix) =
      strategy.body cs ++ (strategy.body suffix).map (Token.shift (byteLength cs)) := by
  cases strategy with
  | sequential => exact Sequential.run_append h cs
  | precedence => exact Precedence.run_append h cs

/-! ### The clause of a limit -/

/-- A keyword and a number, with a blank in front of each. -/
def limitClause (digits : List Char) : List Char :=
  ' ' :: ("LIMIT".toList ++ ' ' :: digits)

/-- Where a shape of the table goes on with a blank, it does not go on with `LIMIT`. -/
theorem Rule.agree_drop_limit {rule : Rule} (hrule : rule ∈ table) {s : Shape}
    (hs : s ∈ rule.pattern.alternatives) {n : Nat} (hpos : n ≠ 0) (hlt : n < s.length) :
    Shape.agree (s.drop n) (.word " LIMIT") = false := by
  have hall : ∀ rule ∈ table, ∀ s ∈ rule.pattern.alternatives, ∀ n < s.length, n ≠ 0 →
      Shape.agree (s.drop n) (.word " LIMIT") = false := by
    decide
  exact hall rule hrule s hs n hlt hpos

/-- The clause of a limit begins with its keyword. -/
theorem fits_limitClause (digits : List Char) :
    Shape.fits (.word " LIMIT") (limitClause digits) = true := by
  have hshort : Shape.fits (.word " LIMIT") " LIMIT".toList = true := by decide
  have hclause : limitClause digits = " LIMIT".toList ++ ' ' :: digits := by
    simp [limitClause]
  rw [hclause, Shape.fits_append_left (by decide)]
  exact hshort

/-- There is no quote in the clause of a limit. -/
theorem unquoted_limitClause {digits : List Char} (h : ∀ c ∈ digits, isDecimalDigit c = true) :
    (limitClause digits).takeWhile Pattern.isUnquoted = limitClause digits := by
  have hdigits : ∀ c ∈ digits, Pattern.isUnquoted c = true := by
    intro c hc
    have hquote : c ≠ '\'' := by
      rintro rfl
      exact absurd (h _ hc) (by decide)
    simpa [Pattern.isUnquoted] using hquote
  have hletters : ∀ c ∈ "LIMIT".toList, Pattern.isUnquoted c = true :=
    List.all_eq_true.mp (by decide)
  have hblank : Pattern.isUnquoted ' ' = true := by decide
  rw [List.takeWhile_eq_self_iff]
  intro c hc
  simp only [limitClause, List.mem_cons, List.mem_append] at hc
  rcases hc with rfl | hc | rfl | hc
  · exact hblank
  · exact hletters c hc
  · exact hblank
  · exact hdigits c hc

/-- The clause changes nothing in front of it: no word or moment goes on into it, it has no quote,
and its blank ends a number. -/
theorem standsApart_limitClause {digits : List Char}
    (h : ∀ c ∈ digits, isDecimalDigit c = true) : StandsApart (limitClause digits) := by
  refine ⟨⟨' ', _, rfl, isBlank_space⟩, fun rule hrule back hback => ?_⟩
  cases hp : rule.pattern with
  | shapes alternatives =>
      have hfits : ∀ s ∈ alternatives, s.fits (back ++ limitClause digits) = s.fits back := by
        intro s hs
        by_cases hlen : s.length ≤ back.length
        · exact Shape.fits_append_left hlen _
        · -- the shape would have to go on into the clause
          have hmem : s ∈ rule.pattern.alternatives := by
            rw [hp]
            exact hs
          have hshort : s.fits back = false := by
            by_contra hfits
            exact hlen (Shape.length_le_of_fits (by simpa using hfits))
          have hdrop := Rule.agree_drop_limit hrule hmem (by simpa using hback) (Nat.not_le.mp hlen)
          rw [hshort]
          by_contra hlong
          have hagree := Shape.agree_of_fits (Shape.fits_drop (by simpa using hlong))
            (fits_limitClause digits)
          rw [hdrop] at hagree
          contradiction
      have hfind : alternatives.find? (fun s => s.fits (back ++ limitClause digits)) =
          alternatives.find? (fun s => s.fits back) := by
        apply List.find?_congr
        exact hfits
      simp only [Pattern.width?, hfind]
  | quoted =>
      obtain ⟨c, back, rfl⟩ := List.exists_cons_of_ne_nil hback
      by_cases hc : c = '\''
      · rw [hc, List.cons_append]
        simp only [Pattern.width?, List.takeWhile_append, unquoted_limitClause h]
        by_cases hopen : (back.takeWhile Pattern.isUnquoted).length = back.length
        · rw [if_pos hopen, if_neg (Nat.lt_irrefl _), if_neg (by omega)]
        · have hle := (List.takeWhile_sublist Pattern.isUnquoted (l := back)).length_le
          rw [if_neg hopen, List.length_append, if_pos (by omega), if_pos (by omega)]
      · rw [← hp, List.cons_append, Rule.width?_eq_none_of_ne_quote hp hc,
          Rule.width?_eq_none_of_ne_quote hp hc]
  | digitRun =>
      have hblank : isDecimalDigit ' ' = false := by decide
      simp only [Pattern.width?, limitClause, takeWhile_before hblank]

/-- The tokens of a text with a limit behind it are those of the text, the keyword and the
number. -/
theorem Strategy.exists_body_limitClause (strategy : Strategy) (cs : List Char) {digits : List Char}
    (hne : digits ≠ []) (h : ∀ c ∈ digits, isDecimalDigit c = true) :
    ∃ keyword number : Token,
      strategy.body (cs ++ limitClause digits) = strategy.body cs ++ [keyword, number] ∧
        keyword.kind = .limit ∧ number.kind = .number ∧ number.value = String.ofList digits := by
  let keyword : Rule := ⟨.limit, .words ["limit"], 1⟩
  let number : Rule := ⟨.number, .digitRun, 2⟩
  have hkeyword : keyword.Leads "LIMIT".toList (' ' :: digits) :=
    Rule.leads_of_fits (by decide) (t := .word "limit") (by decide) (by decide) (by decide)
      (by simp [isBlank_space])
  have hnumber : number.Leads digits [] :=
    Rule.leads_of_digits (by decide) rfl hne h (by simp)
  have htiling : Tiling 0 (limitClause digits)
      [keyword.token 1 "LIMIT".toList, number.token 7 digits] := by
    have hend : Tiling 7 (digits ++ []) [number.token 7 digits] := .token hnumber .nil
    rw [List.append_nil] at hend
    exact .blank isBlank_space (.token hkeyword (.blank isBlank_space hend))
  obtain ⟨hsequential, hprecedence⟩ := Strategy.body_of_tiling htiling
  have hbody : strategy.body (limitClause digits) =
      [keyword.token 1 "LIMIT".toList, number.token 7 digits] := by
    cases strategy with
    | sequential => exact hsequential
    | precedence => exact hprecedence
  rw [body_append strategy (standsApart_limitClause h), hbody]
  exact ⟨_, _, rfl, rfl, rfl, rfl⟩

end ErrorQuery
