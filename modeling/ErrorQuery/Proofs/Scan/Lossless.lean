import ErrorQuery.Proofs.Scan.Coverage
import ErrorQuery.Proofs.Scan.Lexemes

/-!
# Texts of which the precedence scan drops nothing

Where the tokens of a precedence scan and the blanks between them make up the whole text, they are
a tiling of it, so the sequential scan makes the same tokens
(`strategies_agree_if_nothing_dropped`).

The proof walks along the text.  Between two tokens the scan is `Ready`, and a character that is not
blank is covered by a token that begins there, since every earlier one has ended.  That some rule
takes something there gives a rule that leads, and its cursor is free: it could only be that of
numbers, but no rule stands behind that one in the table, so no token would begin there at all.
-/

set_option autoImplicit false

namespace ErrorQuery

open Text

namespace Covers

/-- Tokens that cover a text cover it behind its first character. -/
theorem tail {tokens : List Token} {position : Nat} {c : Char} {cs : List Char}
    (h : Covers tokens position (c :: cs)) : Covers tokens (position + c.utf8Size) cs := by
  intro before d after hsplit hd
  have hhere := h (c :: before) d after (by rw [hsplit, List.cons_append]) hd
  rwa [byteLength_cons, ← Nat.add_assoc] at hhere

/-- Behind its first token a text is covered by the others. -/
theorem behind {token : Token} {tokens : List Token} {position : Nat} {taken rest : List Char}
    (h : Covers (token :: tokens) position (taken ++ rest))
    (hstop : token.span.stop = position + byteLength taken) :
    Covers tokens (position + byteLength taken) rest := by
  intro before c after hsplit hc
  obtain ⟨other, hother, hcontains⟩ :=
    h (taken ++ before) c after (by rw [hsplit, List.append_assoc]) hc
  rw [byteLength_append, ← Nat.add_assoc] at hcontains
  rcases List.mem_cons.mp hother with rfl | hother
  · have hhigh := hcontains.2
    omega
  · exact ⟨other, hother, hcontains⟩

end Covers

/-- No rule stands behind that of numbers. -/
theorem Rule.eq_nil_of_digitRun {earlier later : List Rule} {rule : Rule}
    (htable : table = earlier ++ rule :: later) (hp : rule.pattern = .digitRun) : later = [] := by
  cases later with
  | nil => rfl
  | cons next later =>
      rw [List.append_cons] at htable
      exact absurd hp (ne_digitRun_of_earlier htable (by simp))

namespace Precedence

/-- A token is found only where a rule is free and takes something. -/
theorem exists_rule_of_token? {before cs : List Char} {last : Nat} {token : Token}
    (h : (stateAt before cs last).token? (byteLength before) cs = some token) :
    ∃ rule ∈ Rule.table, (rule.cursor before cs).free ≤ byteLength before ∧
      (rule.tokenAt? (byteLength before) cs).isSome = true := by
  simp only [State.token?, Option.ite_none_left_eq_some] at h
  obtain ⟨cursor, hcursor, hit⟩ := List.exists_of_findSome?_eq_some h.2
  obtain ⟨rule, hrule, rfl⟩ := List.mem_map.mp hcursor
  simp only [Cursor.hit?, Rule.rule_cursor, Option.ite_none_right_eq_some] at hit
  exact ⟨rule, hrule, hit.1, by rw [hit.2, Option.isSome_some]⟩

/-- Where a token begins, some rule leads, and its cursor is free. -/
theorem exists_leads_of_token? {previous : Option Token} {before cs : List Char} {last : Nat}
    {token : Token} (hready : Ready previous before cs last)
    (h : (stateAt before cs last).token? (byteLength before) cs = some token) :
    ∃ rule taken rest, cs = taken ++ rest ∧ Rule.Leads rule taken rest ∧
      (rule.cursor before (taken ++ rest)).free ≤ byteLength before := by
  obtain ⟨found, hfound, hfree, hsome⟩ := exists_rule_of_token? h
  cases hlead : Sequential.ruleToken? (byteLength before) cs with
  | none =>
      rw [Sequential.ruleToken?, List.findSome?_eq_none_iff] at hlead
      rw [hlead found hfound] at hsome
      contradiction
  | some leading =>
      obtain ⟨rule, taken, rest, rfl, hleads, -⟩ := Sequential.exists_leads_of_ruleToken? hlead
      refine ⟨rule, taken, rest, rfl, hleads, ?_⟩
      by_contra hblocked
      have hblocked := Nat.not_le.mp hblocked
      obtain ⟨hp, -⟩ := hready.number_of_blocked hleads.mem_table hleads.takes hblocked
      obtain ⟨earlier, later, htable, -, hearlier⟩ := hleads
      -- the rule that was found is an earlier one, which takes nothing, or the blocked one
      rw [htable, Rule.eq_nil_of_digitRun htable hp, List.mem_append, List.mem_singleton] at hfound
      rcases hfound with hfound | rfl
      · rw [Rule.tokenAt?_eq_none_iff.mpr (hearlier found hfound)] at hsome
        contradiction
      · omega

/-- A character that is covered but not blank begins a token. -/
theorem token?_of_covers {before cs : List Char} {c : Char} {last : Nat} (hc : isBlank c = false)
    (hcovers : Covers (scanner.run (stateAt before (c :: cs) last) (byteLength before) (c :: cs))
      (byteLength before) (c :: cs)) :
    ∃ token, (stateAt before (c :: cs) last).token? (byteLength before) (c :: cs) = some token := by
  obtain ⟨token, htoken, hlow, -⟩ := hcovers [] c cs rfl hc
  rw [byteLength_nil, Nat.add_zero] at hlow
  rw [Scanner.run, List.mem_append, Option.mem_toList] at htoken
  rcases htoken with htoken | htoken
  · exact ⟨token, htoken⟩
  · have hlater := Scanner.le_start_of_mem_run start_of_token? htoken
    have hpos := Char.utf8Size_pos c
    omega

/-- A precedence scan that covers its text finds a tiling of it. -/
theorem tiling_run {previous : Option Token} {before cs : List Char} {last : Nat}
    (hready : Ready previous before cs last)
    (hcovers : Covers (scanner.run (stateAt before cs last) (byteLength before) cs)
      (byteLength before) cs) :
    Tiling (byteLength before) cs
      (scanner.run (stateAt before cs last) (byteLength before) cs) := by
  induction hn : cs.length using Nat.strongRecOn generalizing cs before previous last with
  | ind n ih =>
      cases cs with
      | nil => exact .nil
      | cons c cs =>
          have hstep : byteLength (before ++ [c]) = byteLength before + c.utf8Size := by simp
          cases hc : isBlank c with
          | true =>
              have hquiet : (stateAt before (c :: cs) last).token? (byteLength before) (c :: cs) =
                  none := by
                apply token?_of_none
                intro rule hrule
                exact Rule.hit?_cursor_of_none (Rule.width?_of_blank hrule hc cs) _ _
              rw [run_quiet hquiet] at hcovers ⊢
              have hrest := hcovers.tail
              apply Tiling.blank hc
              rw [← hstep] at hrest ⊢
              exact ih cs.length (by simp at hn; omega) (hready.blank hc) hrest rfl
          | false =>
              -- a character that is not blank must be covered, and only by a token beginning here
              obtain ⟨token, htoken⟩ := token?_of_covers hc hcovers
              obtain ⟨rule, taken, rest, htext, hlead, hfree⟩ :=
                exists_leads_of_token? hready htoken
              have hrule := hlead.mem_table
              have hlen : byteLength (before ++ taken) = byteLength before + byteLength taken :=
                byteLength_append before taken
              rw [htext] at hready hcovers ⊢
              rw [run_leads hready.last_le hlead hfree] at hcovers ⊢
              have hrest := hcovers.behind rfl
              have hlt : rest.length < n := by
                obtain ⟨d, ds, rfl, -⟩ := hlead.takes.exists_cons hrule
                rw [htext, List.cons_append, List.length_cons, List.length_append] at hn
                omega
              apply Tiling.token hlead
              rw [← hlen] at hrest ⊢
              exact ih rest.length hlt (hready.token hrule hlead.takes (Nat.le_refl _)) hrest rfl

end Precedence

/-- No tile is an invalid token. -/
theorem Tiling.kind_ne_invalid {position : Nat} {cs : List Char} {tokens : List Token}
    (h : Tiling position cs tokens) : ∀ token ∈ tokens, token.kind ≠ .invalid := by
  induction h with
  | nil => simp
  | blank _ _ ih => exact ih
  | token hlead _ ih =>
      intro token htoken
      rcases List.mem_cons.mp htoken with rfl | htoken
      · exact (Rule.kind_ne hlead.mem_table).1
      · exact ih token htoken

/-- If the tokens of the precedence strategy cover all of a text but blanks, which is so exactly if
no record reports dropped text, the sequential strategy makes the same tokens, none of them
invalid. -/
theorem strategies_agree_if_nothing_dropped (text : String) :
    (Covers (Strategy.precedence.tokenize text) 0 text.toList ↔
      ∀ record ∈ Strategy.precedence.tokenizeLog text, record.reportsDropped = false) ∧
    (Covers (Strategy.precedence.tokenize text) 0 text.toList →
      Strategy.sequential.tokenize text = Strategy.precedence.tokenize text ∧
        ∀ token ∈ Strategy.sequential.tokenize text, token.kind ≠ .invalid) := by
  constructor
  · exact covers_iff_log text
  · intro hcovers
    rw [covers_tokenize_iff] at hcovers
    have htiling : Tiling 0 text.toList (Strategy.precedence.body text.toList) :=
      Precedence.tiling_run (Ready.nil text.toList) hcovers
    have hbody : Strategy.sequential.body text.toList = Strategy.precedence.body text.toList :=
      Sequential.run_of_tiling htiling (Nat.le_refl 0)
    rw [Strategy.tokenize_eq_body, Strategy.tokenize_eq_body, hbody]
    refine ⟨rfl, ?_⟩
    intro token htoken
    rw [List.mem_append, List.mem_singleton] at htoken
    rcases htoken with htoken | rfl
    · exact htiling.kind_ne_invalid token htoken
    · exact Kind.noConfusion

/-- Nothing is dropped where words stand next to quotes and inside them. -/
theorem strategies_agree_if_nothing_dropped_around_quotes :
    (∀ record ∈ Strategy.precedence.tokenizeLog "in'not in'in(5)", record.reportsDropped = false) ∧
      Strategy.sequential.tokenize "in'not in'in(5)" =
        Strategy.precedence.tokenize "in'not in'in(5)" := by
  have hlog : ∀ record ∈ Strategy.precedence.tokenizeLog "in'not in'in(5)",
      record.reportsDropped = false := by
    decide +kernel
  have hcovers := (strategies_agree_if_nothing_dropped "in'not in'in(5)").1.mpr hlog
  exact ⟨hlog, ((strategies_agree_if_nothing_dropped _).2 hcovers).1⟩

end ErrorQuery
