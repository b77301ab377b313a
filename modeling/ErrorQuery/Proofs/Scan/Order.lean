import ErrorQuery.Proofs.Scan.Literal

/-!
# Walks whose tokens stand one behind the other

A walk is `Forward` if its state remembers where the last token has ended and no token is made
before that.  Then the tokens stand one behind the other (`Scanner.Forward.pairwise_run`), and at
any place the state tells whether a token reaches past it (`Scanner.Forward.lt_reach_after_iff`).

Both scans walk like this, and so does a single cursor.  So the tokens that a rule makes in a text
are those that its cursor meets on the way (`Rule.mem_findAll_iff`), and a cursor that is not free
stands inside one of them (`Rule.lt_free_iff`).
-/

set_option autoImplicit false

namespace ErrorQuery

open Text

namespace Scanner

variable {σ : Type} {s : Scanner σ}

/-- The tokens of a walk are made in the states that it comes through. -/
theorem mem_run_iff {state : σ} {position : Nat} {cs : List Char} {token : Token} :
    token ∈ s.run state position cs ↔ ∃ before c rest, cs = before ++ c :: rest ∧
      s.token? (s.after state position before (c :: rest)) (position + byteLength before)
        (c :: rest) = some token := by
  constructor
  · intro h
    induction cs generalizing state position with
    | nil => simp at h
    | cons c cs ih =>
        rw [run, List.mem_append, Option.mem_toList] at h
        rcases h with h | h
        · exact ⟨[], c, cs, rfl, h⟩
        · obtain ⟨before, d, rest, rfl, htoken⟩ := ih h
          refine ⟨c :: before, d, rest, rfl, ?_⟩
          rwa [byteLength_cons, ← Nat.add_assoc]
  · rintro ⟨before, c, rest, rfl, htoken⟩
    rw [run_append, List.mem_append, run, List.mem_append, Option.mem_toList]
    exact .inr (.inl htoken)

/-- A token begins where the walk stands and behind the byte that `reach` tells, which is the end
of the last token. -/
structure Forward (s : Scanner σ) (reach : σ → Nat) : Prop where
  start : ∀ {state position cs token}, s.token? state position cs = some token →
    token.span.start = position
  start_le_stop : ∀ {state position cs token}, s.token? state position cs = some token →
    token.span.start ≤ token.span.stop
  reach_le : ∀ {state position cs token}, s.token? state position cs = some token →
    reach state ≤ position
  reach_next : ∀ state position cs, reach (s.next state position cs) =
    ((s.token? state position cs).map (·.span.stop)).getD (reach state)

namespace Forward

variable {reach : σ → Nat}

/-- No token begins before the byte that has been reached. -/
theorem reach_le_start_of_mem_run (h : s.Forward reach) {state : σ} {position : Nat}
    {cs : List Char} {token : Token} (hmem : token ∈ s.run state position cs) :
    reach state ≤ token.span.start := by
  induction cs generalizing state position with
  | nil => simp at hmem
  | cons c cs ih =>
      have hnext := h.reach_next state position (c :: cs)
      rw [run, List.mem_append, Option.mem_toList] at hmem
      rcases hmem with hmem | hmem
      · rw [h.start hmem]
        exact h.reach_le hmem
      · have hlater := ih hmem
        cases htoken : s.token? state position (c :: cs) with
        | none =>
            rw [htoken, Option.map_none, Option.getD_none] at hnext
            omega
        | some made =>
            have hmade := h.start_le_stop htoken
            have hbehind := h.reach_le htoken
            rw [htoken, Option.map_some, Option.getD_some] at hnext
            rw [h.start htoken] at hmade
            omega

/-- The tokens stand one behind the other. -/
theorem pairwise_run (h : s.Forward reach) (state : σ) (position : Nat) (cs : List Char) :
    (s.run state position cs).Pairwise fun a b => a.span.stop ≤ b.span.start := by
  induction cs generalizing state position with
  | nil => exact .nil
  | cons c cs ih =>
      have hnext := h.reach_next state position (c :: cs)
      have hrest := ih (s.next state position (c :: cs)) (position + c.utf8Size)
      rw [run]
      cases htoken : s.token? state position (c :: cs) with
      | none => exact hrest
      | some made =>
          rw [htoken, Option.map_some, Option.getD_some] at hnext
          refine .cons (fun later hlater => ?_) hrest
          rw [← hnext]
          exact h.reach_le_start_of_mem_run hlater

/-- A walk stands before the end of the last token exactly if a token begins before that place and
ends behind it, or the walk has begun so. -/
theorem lt_reach_after_iff (h : s.Forward reach) (state : σ) (position : Nat)
    (before rest : List Char) :
    position + byteLength before < reach (s.after state position before rest) ↔
      position + byteLength before < reach state ∨
        ∃ token ∈ s.run state position (before ++ rest),
          token.span.start < position + byteLength before ∧
            position + byteLength before < token.span.stop := by
  induction before generalizing state position with
  | nil =>
      simp only [after_nil, List.nil_append, byteLength_nil, Nat.add_zero, iff_self_or]
      rintro ⟨token, htoken, hlow, -⟩
      have hstart := le_start_of_mem_run h.start htoken
      omega
  | cons c before ih =>
      have hpos := Char.utf8Size_pos c
      have hnext := h.reach_next state position (c :: (before ++ rest))
      rw [after, byteLength_cons, ← Nat.add_assoc, ih, List.cons_append, run]
      cases htoken : s.token? state position (c :: (before ++ rest)) with
      | none =>
          rw [htoken, Option.map_none, Option.getD_none] at hnext
          rw [hnext, Option.toList_none, List.nil_append]
      | some made =>
          -- the token made here takes the place of what the state remembered
          have hstart := h.start htoken
          have hreach := h.reach_le htoken
          rw [htoken, Option.map_some, Option.getD_some] at hnext
          rw [hnext, Option.toList_some, List.singleton_append, List.exists_mem_cons_iff]
          constructor
          · rintro (hstop | hlater)
            · exact .inr (.inl ⟨by omega, hstop⟩)
            · exact .inr (.inr hlater)
          · rintro (hold | ⟨-, hstop⟩ | hlater)
            · omega
            · exact .inl hstop
            · exact .inr hlater

end Forward

end Scanner

/-! ### The tokens of a rule -/

/-- What a cursor meets is what its rule takes where it is free. -/
theorem Cursor.exists_takes_of_hit? {cursor : Cursor} {position : Nat} {cs : List Char}
    {token : Token} (h : cursor.hit? position cs = some token) :
    cursor.free ≤ position ∧ ∃ taken rest, cs = taken ++ rest ∧ cursor.rule.Takes taken rest ∧
      token = cursor.rule.token position taken := by
  rw [hit?, Option.ite_none_right_eq_some] at h
  exact ⟨h.1, Rule.exists_takes_of_tokenAt? h.2⟩

/-- A cursor reaches the end of its last token. -/
theorem Cursor.forward : scanner.Forward Cursor.free where
  start := Precedence.start_of_hit?
  start_le_stop := by
    intro cursor position cs token h
    obtain ⟨-, taken, rest, -, -, rfl⟩ := exists_takes_of_hit? h
    exact Nat.le_add_right _ _
  reach_le := fun h => (exists_takes_of_hit? h).1
  reach_next := by
    intro cursor position cs
    simp only [scanner, pass]
    cases cursor.hit? position cs <;> rfl

namespace Rule

/-- Looking for a rule everywhere is the walk of its cursor. -/
theorem findAll_eq_run (rule : Rule) (cs : List Char) :
    rule.findAll cs = Cursor.scanner.run ⟨rule, 0⟩ 0 cs :=
  Cursor.hits_eq_run _ _ _

/-- The tokens of a rule are made where the rule takes something and its cursor is free. -/
theorem mem_findAll_iff {rule : Rule} {cs : List Char} {token : Token} :
    token ∈ rule.findAll cs ↔ ∃ before rest, cs = before ++ rest ∧ rest ≠ [] ∧
      (rule.cursor before rest).hit? (byteLength before) rest = some token := by
  rw [findAll_eq_run, Scanner.mem_run_iff]
  constructor
  · rintro ⟨before, c, rest, rfl, htoken⟩
    rw [Nat.zero_add] at htoken
    exact ⟨before, c :: rest, rfl, by simp, htoken⟩
  · rintro ⟨before, rest, rfl, hne, htoken⟩
    obtain ⟨c, rest, rfl⟩ := List.exists_cons_of_ne_nil hne
    refine ⟨before, c, rest, rfl, ?_⟩
    rwa [Nat.zero_add]

/-- The tokens of a rule stand one behind the other. -/
theorem pairwise_findAll (rule : Rule) (cs : List Char) :
    (rule.findAll cs).Pairwise fun a b => a.span.stop ≤ b.span.start := by
  rw [findAll_eq_run]
  exact Cursor.forward.pairwise_run _ _ _

/-- A cursor is not free exactly inside a token of its rule. -/
theorem lt_free_iff (rule : Rule) (before rest : List Char) :
    byteLength before < (rule.cursor before rest).free ↔
      ∃ token ∈ rule.findAll (before ++ rest),
        token.span.start < byteLength before ∧ byteLength before < token.span.stop := by
  have h := Cursor.forward.lt_reach_after_iff ⟨rule, 0⟩ 0 before rest
  rw [findAll_eq_run, cursor]
  simpa only [Nat.zero_add, Nat.not_lt_zero, false_or] using h

end Rule

end ErrorQuery
