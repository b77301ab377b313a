import ErrorQuery.Proofs.Scan.Blocking

/-!
# Where tokens come from

Every token of a text is made at some place of it: by a rule of the table, which takes the
characters there, or, in the sequential scan, because no rule takes any.  The end of the query is
no such token, so it stands at the end of the tokens only.
-/

set_option autoImplicit false

namespace ErrorQuery

open Text

/-- A token is made at a place of the text, in a state that the walk keeps to. -/
theorem Scanner.exists_of_mem_run {σ : Type} {s : Scanner σ} {I : σ → Prop}
    (hnext : ∀ state position cs, I state → I (s.next state position cs)) {state : σ}
    (hstate : I state) {position : Nat} {cs : List Char} {token : Token}
    (h : token ∈ s.run state position cs) :
    ∃ before rest state', cs = before ++ rest ∧ rest ≠ [] ∧ I state' ∧
      s.token? state' (position + byteLength before) rest = some token := by
  induction cs generalizing state position with
  | nil => simp at h
  | cons c cs ih =>
      rw [Scanner.run, List.mem_append, Option.mem_toList] at h
      rcases h with h | h
      · exact ⟨[], c :: cs, state, rfl, by simp, hstate, h⟩
      · obtain ⟨before, rest, state', rfl, hne, hstate', htoken⟩ :=
          ih (hnext state position (c :: cs) hstate) h
        refine ⟨c :: before, rest, state', rfl, hne, hstate', ?_⟩
        rwa [byteLength_cons, ← Nat.add_assoc]

/-- The token was made by a rule of the table that takes characters of the text. -/
def Token.FromRule (token : Token) (cs : List Char) : Prop :=
  ∃ rule ∈ Rule.table, ∃ before taken rest, cs = before ++ (taken ++ rest) ∧
    rule.Takes taken rest ∧ token = rule.token (byteLength before) taken

/-- The token is invalid and was made where no rule of the table takes anything. -/
def Token.FromGap (token : Token) (cs : List Char) : Prop :=
  ∃ before rest, cs = before ++ rest ∧ Sequential.ruleToken? (byteLength before) rest = none ∧
    token = Sequential.invalidToken (byteLength before) rest

/-- A token of the sequential scan comes from a rule or from a stretch that no rule begins in. -/
theorem Sequential.origin_of_mem_run {cs : List Char} {token : Token}
    (h : token ∈ scanner.run 0 0 cs) : token.FromRule cs ∨ token.FromGap cs := by
  obtain ⟨before, rest, free, rfl, -, -, htoken⟩ :=
    Scanner.exists_of_mem_run (I := fun _ => True) (fun _ _ _ _ => trivial) trivial h
  rw [Nat.zero_add] at htoken
  simp only [scanner, Option.ite_none_left_eq_some, Option.some.injEq] at htoken
  obtain ⟨-, rfl⟩ := htoken
  cases hrule : ruleToken? (byteLength before) rest with
  | none =>
      right
      exact ⟨before, rest, rfl, hrule, by rw [tokenAt, hrule]; rfl⟩
  | some token =>
      left
      obtain ⟨rule, taken, rest, rfl, hlead, rfl⟩ := exists_leads_of_ruleToken? hrule
      exact ⟨rule, hlead.mem_table, before, taken, rest, rfl, hlead.takes,
        by rw [tokenAt, hrule]; rfl⟩

namespace Precedence

/-- Every cursor of the state looks for a rule of the table. -/
def State.OverTable (state : State) : Prop :=
  ∀ cursor ∈ state.cursors, cursor.rule ∈ Rule.table

/-- At first the cursors are those of the table. -/
theorem overTable_initial : initial.OverTable := by
  simp [State.OverTable, initial]

/-- The cursors keep their rules from step to step. -/
theorem State.OverTable.next {state : State} (h : state.OverTable) (position : Nat)
    (cs : List Char) : (scanner.next state position cs).OverTable := by
  intro cursor hcursor
  obtain ⟨earlier, hearlier, rfl⟩ := List.mem_map.mp hcursor
  rw [Cursor.rule_pass]
  exact h earlier hearlier

/-- A token of the precedence scan comes from a rule. -/
theorem origin_of_mem_run {cs : List Char} {token : Token}
    (h : token ∈ scanner.run initial 0 cs) : token.FromRule cs := by
  obtain ⟨before, rest, state, rfl, -, hrules, htoken⟩ :=
    Scanner.exists_of_mem_run (fun _ position cs hstate => hstate.next position cs)
      overTable_initial h
  rw [Nat.zero_add] at htoken
  simp only [scanner, State.token?, Option.ite_none_left_eq_some] at htoken
  obtain ⟨cursor, hcursor, hit⟩ := List.exists_of_findSome?_eq_some htoken.2
  rw [Cursor.hit?] at hit
  split at hit
  · obtain ⟨taken, rest, rfl, ht, rfl⟩ := Rule.exists_takes_of_tokenAt? hit
    exact ⟨cursor.rule, hrules cursor hcursor, before, taken, rest, rfl, ht, rfl⟩
  · contradiction

end Precedence

namespace Strategy

/-- The tokens of a text without the end of the query. -/
def body (strategy : Strategy) (cs : List Char) : List Token :=
  match strategy with
  | .sequential => Sequential.scanner.run 0 0 cs
  | .precedence => Precedence.scanner.run Precedence.initial 0 cs

/-- The tokens of a text are closed by the end of the query. -/
theorem tokenize_eq_body (strategy : Strategy) (text : String) :
    strategy.tokenize text =
      strategy.body text.toList ++ [.terminator (byteLength text.toList)] := by
  cases strategy with
  | sequential => exact tokenize_sequential text
  | precedence => exact tokenize_precedence text

/-- Every other token is made by a rule or invalid. -/
theorem origin_of_mem_body {strategy : Strategy} {cs : List Char} {token : Token}
    (h : token ∈ strategy.body cs) : token.FromRule cs ∨ token.FromGap cs := by
  cases strategy with
  | sequential => exact Sequential.origin_of_mem_run h
  | precedence => exact .inl (Precedence.origin_of_mem_run h)

/-- The body of a text has no end among its tokens. -/
theorem kind_ne_terminator_of_mem_body {strategy : Strategy} {cs : List Char} {token : Token}
    (h : token ∈ strategy.body cs) : token.kind ≠ .terminator := by
  obtain ⟨rule, hrule, -, -, -, -, -, rfl⟩ | ⟨-, -, -, -, rfl⟩ := origin_of_mem_body h
  · exact (Rule.kind_ne hrule).2
  · intro hkind
    contradiction

/-- Every token but an invalid one comes from a rule. -/
theorem fromRule_of_mem_body {strategy : Strategy} {cs : List Char} {token : Token}
    (h : token ∈ strategy.body cs) (hkind : token.kind ≠ .invalid) : token.FromRule cs := by
  rcases origin_of_mem_body h with hrule | ⟨before, rest, -, -, rfl⟩
  · exact hrule
  · exact absurd rfl hkind

/-- The value of a text has no quote in it. -/
theorem unquoted_of_mem_body {strategy : Strategy} {cs : List Char} {token : Token}
    (h : token ∈ strategy.body cs) (hkind : token.kind = .text) : '\'' ∉ token.value.toList := by
  obtain ⟨rule, hrule, before, taken, rest, -, ht, rfl⟩ :=
    fromRule_of_mem_body h (by rw [hkind]; decide)
  have hp : rule.pattern = .quoted := (Rule.pattern_iff_kind hrule).1.mpr hkind
  obtain ⟨inside, rfl, hinside⟩ := ht.quoted hp
  have hvalue : rule.pattern.value ('\'' :: (inside ++ ['\''])) = inside := by
    rw [hp, Pattern.value, List.drop_one, List.tail_cons, List.dropLast_concat]
  rw [Rule.token, String.toList_ofList, hvalue]
  intro hmem
  exact hinside _ hmem rfl

/-- The value of a moment begins with a digit. -/
theorem startsWithDigit_of_mem_body {strategy : Strategy} {cs : List Char} {token : Token}
    (h : token ∈ strategy.body cs) (hkind : token.kind = .dateTime) :
    startsWithDigit token.value.toList = true := by
  obtain ⟨rule, hrule, before, taken, rest, -, ht, rfl⟩ :=
    fromRule_of_mem_body h (by rw [hkind]; decide)
  have hp : rule.pattern = .timestamp := (Rule.pattern_iff_kind hrule).2.2.mpr hkind
  have hvalue : rule.pattern.value taken = taken := by
    rw [hp]
    rfl
  rw [Rule.token, String.toList_ofList, hvalue]
  obtain ⟨s, hs, hfits, -⟩ | ⟨hquoted, -⟩ | ⟨hdigits, -⟩ := Rule.takes_cases ht
  · rw [hp] at hs
    rw [List.mem_singleton.mp hs] at hfits
    obtain ⟨c, ds, rfl, hc, -⟩ := Shape.exists_cons_of_fits hfits
    exact hc
  · rw [hp] at hquoted
    contradiction
  · rw [hp] at hdigits
    contradiction

end Strategy

end ErrorQuery
