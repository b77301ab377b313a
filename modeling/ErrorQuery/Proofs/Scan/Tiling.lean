import ErrorQuery.Proofs.Scan.Scanner

/-!
# Texts that fall into tokens and blanks

`Tiling position cs tokens` says that a text which begins at the byte `position` consists of
blanks and of the given tokens, each of them that of the first rule of the table that takes
anything where it begins.  It is what the sequential scan finds when it meets no invalid token,
and it determines what the scan finds (`Sequential.run_of_tiling`, `Sequential.tiling_run`).
-/

set_option autoImplicit false

namespace ErrorQuery

open Text

namespace Rule

/-- The rule takes `taken` in front of `rest`, and no rule before it in the table takes
anything there. -/
def Leads (rule : Rule) (taken rest : List Char) : Prop :=
  ∃ earlier later, table = earlier ++ rule :: later ∧ rule.Takes taken rest ∧
    ∀ r ∈ earlier, r.pattern.width? (taken ++ rest) = none

/-- A rule that leads is one of the table. -/
theorem Leads.mem_table {rule : Rule} {taken rest : List Char} (h : rule.Leads taken rest) :
    rule ∈ table := by
  obtain ⟨earlier, later, htable, -⟩ := h
  rw [htable]
  simp

/-- A rule that leads takes what it leads on. -/
theorem Leads.takes {rule : Rule} {taken rest : List Char} (h : rule.Leads taken rest) :
    rule.Takes taken rest := by
  obtain ⟨-, -, -, ht, -⟩ := h
  exact ht

/-- No rule makes an invalid token or the end of a query. -/
theorem kind_ne {rule : Rule} (h : rule ∈ table) :
    rule.kind ≠ .invalid ∧ rule.kind ≠ .terminator := by
  revert rule
  decide

end Rule

/-- A text that falls into blanks and tokens of leading rules. -/
inductive Tiling : Nat → List Char → List Token → Prop where
  | nil {position : Nat} : Tiling position [] []
  | blank {position : Nat} {c : Char} {cs : List Char} {tokens : List Token} :
      isBlank c = true → Tiling (position + c.utf8Size) cs tokens →
      Tiling position (c :: cs) tokens
  | token {position : Nat} {rule : Rule} {taken rest : List Char} {tokens : List Token} :
      rule.Leads taken rest → Tiling (position + byteLength taken) rest tokens →
      Tiling position (taken ++ rest) (rule.token position taken :: tokens)

namespace Tiling

/-- A tiling begins with a blank or with what a rule takes. -/
theorem head {position : Nat} {c : Char} {cs : List Char} {tokens : List Token}
    (h : Tiling position (c :: cs) tokens) :
    isBlank c = true ∨ ∃ rule ∈ Rule.table, ∃ taken rest,
      c :: cs = taken ++ rest ∧ rule.Takes taken rest := by
  generalize htext : c :: cs = text at h
  cases h with
  | nil => contradiction
  | blank hc _ =>
      obtain ⟨rfl, rfl⟩ := List.cons.inj htext
      exact .inl hc
  | token hlead _ => exact .inr ⟨_, hlead.mem_table, _, _, rfl, hlead.takes⟩

/-- Blanks may stand in front of a tiling. -/
theorem blanks {position : Nat} {gap cs : List Char} {tokens : List Token}
    (hgap : ∀ c ∈ gap, isBlank c = true) (h : Tiling (position + byteLength gap) cs tokens) :
    Tiling position (gap ++ cs) tokens := by
  induction gap generalizing position with
  | nil => simpa using h
  | cons c gap ih =>
      refine .blank (hgap c (by simp)) (ih (fun d hd => hgap d (List.mem_cons_of_mem c hd)) ?_)
      rw [byteLength_cons, ← Nat.add_assoc] at h
      exact h

end Tiling

namespace Sequential

/-- The first rule that takes anything at a place makes its token. -/
theorem ruleToken?_of_leads {rule : Rule} {taken rest : List Char} (h : rule.Leads taken rest)
    (position : Nat) :
    ruleToken? position (taken ++ rest) = some (rule.token position taken) := by
  obtain ⟨earlier, later, htable, ht, hearlier⟩ := h
  rw [ruleToken?, List.findSome?_eq_some_iff]
  exact ⟨earlier, rule, later, htable, Rule.tokenAt?_of_takes ht position,
    fun r hr => Rule.tokenAt?_eq_none_iff.mpr (hearlier r hr)⟩

/-- Every token made by a rule is that of a leading rule. -/
theorem exists_leads_of_ruleToken? {position : Nat} {cs : List Char} {token : Token}
    (h : ruleToken? position cs = some token) :
    ∃ rule taken rest, cs = taken ++ rest ∧ Rule.Leads rule taken rest ∧
      token = rule.token position taken := by
  rw [ruleToken?, List.findSome?_eq_some_iff] at h
  obtain ⟨earlier, rule, later, htable, htoken, hearlier⟩ := h
  obtain ⟨taken, rest, rfl, ht, rfl⟩ := Rule.exists_takes_of_tokenAt? htoken
  exact ⟨rule, taken, rest, rfl,
    ⟨earlier, later, htable, ht, fun r hr => Rule.tokenAt?_eq_none_iff.mp (hearlier r hr)⟩, rfl⟩

/-- The sequential scan moves on to the place from which it is free. -/
theorem run_inside {free position : Nat} (before rest : List Char)
    (h : position + byteLength before ≤ free) :
    scanner.run free position (before ++ rest) =
      scanner.run free (position + byteLength before) rest := by
  induction before generalizing position with
  | nil => simp
  | cons c before ih =>
      have hsize := Char.utf8Size_pos c
      rw [byteLength_cons] at h ⊢
      rw [List.cons_append, run_skip _ (.inl (by omega)), ih (by omega), Nat.add_assoc]

/-- The token of a leading rule is made, and the walk goes on behind it. -/
theorem run_leads {rule : Rule} {taken rest : List Char} (hlead : rule.Leads taken rest)
    {free position : Nat} (hfree : free ≤ position) :
    scanner.run free position (taken ++ rest) =
      rule.token position taken ::
        scanner.run (position + byteLength taken) (position + byteLength taken) rest := by
  obtain ⟨c, cs, rfl, hc⟩ := hlead.takes.exists_cons hlead.mem_table
  have htoken : tokenAt position (c :: cs ++ rest) = rule.token position (c :: cs) := by
    rw [tokenAt, ruleToken?_of_leads hlead, Option.getD_some]
  have hstop : (rule.token position (c :: cs)).span.stop = position + byteLength (c :: cs) := rfl
  rw [List.cons_append] at htoken ⊢
  rw [run_cons _ hfree hc, htoken, hstop, run_inside _ _ (by rw [byteLength_cons]; omega),
    byteLength_cons, Nat.add_assoc]

/-- The walk over a tiling makes its tokens. -/
theorem run_of_tiling {position : Nat} {cs : List Char} {tokens : List Token}
    (h : Tiling position cs tokens) {free : Nat} (hfree : free ≤ position) :
    scanner.run free position cs = tokens := by
  induction h generalizing free with
  | nil => rfl
  | blank hc _ ih => rw [run_skip _ (.inr hc), ih (by omega)]
  | token hlead _ ih => rw [run_leads hlead hfree, ih (Nat.le_refl _)]

/-- A walk without invalid tokens is over a tiling. -/
theorem tiling_run {free position : Nat} {cs : List Char} (hfree : free ≤ position)
    (hvalid : ∀ token ∈ scanner.run free position cs, token.kind ≠ .invalid) :
    Tiling position cs (scanner.run free position cs) := by
  induction hn : cs.length using Nat.strongRecOn generalizing cs free position with
  | ind n ih =>
      cases cs with
      | nil => exact .nil
      | cons c cs =>
          cases hc : isBlank c with
          | true =>
              rw [run_skip cs (.inr hc)] at hvalid ⊢
              exact .blank hc (ih cs.length (by simp at hn; omega) (by omega) hvalid rfl)
          | false =>
              cases htoken : ruleToken? position (c :: cs) with
              | none =>
                  rw [run_cons cs hfree hc] at hvalid
                  have hkind : (tokenAt position (c :: cs)).kind = .invalid := by
                    rw [tokenAt, htoken]
                    rfl
                  exact absurd hkind (hvalid _ (by simp))
              | some token =>
                  obtain ⟨rule, taken, rest, htext, hlead, rfl⟩ := exists_leads_of_ruleToken? htoken
                  rw [htext, run_leads hlead hfree] at hvalid
                  rw [htext, run_leads hlead hfree]
                  refine .token hlead (ih rest.length ?_ (Nat.le_refl _) ?_ rfl)
                  · obtain ⟨d, ds, rfl, -⟩ := hlead.takes.exists_cons hlead.mem_table
                    rw [htext] at hn
                    simp only [List.cons_append, List.length_cons, List.length_append] at hn
                    omega
                  · exact fun token htail => hvalid token (List.mem_cons_of_mem _ htail)

end Sequential

end ErrorQuery
