import ErrorQuery.Proofs.Scan.SequentialCover

/-!
# Which tokens the precedence scan chooses

Looked for everywhere in a text, the rules of the table find tokens that may begin at one place or
overlap.  At each place that no earlier choice reaches past, the precedence scan chooses the one of
the lowest precedence, and among these the one whose rule stands first in the table
(`Precedence.mem_body_iff`, `Token.IsBest`).  What lies between the tokens it has chosen is dropped:
every byte lies in one token or in one gap (`Precedence.count_sweep`), and a gap leaves a record
unless it is blank (`filter_tokenizeLog`).  `precedence_selects_best_matches` puts these together
for a whole text.
-/

set_option autoImplicit false

namespace ErrorQuery

open Text

/-! ### Ranks -/

/-- The token is made by the rule at the given place of the table. -/
structure Token.IsFound (token : Token) (cs : List Char) (index : Nat) (rule : Rule) : Prop where
  table_eq : Rule.table[index]? = some rule
  mem_findAll : token ∈ rule.findAll cs

/-- The first rule ranks before the second; each comes with its place in the table. -/
def Rule.Outranks (rule : Rule) (index : Nat) (other : Rule) (index' : Nat) : Prop :=
  rule.precedence < other.precedence ∨ (rule.precedence = other.precedence ∧ index < index')

/-- Of all tokens that the rules find at its place the token has the best rank. -/
def Token.IsBest (token : Token) (cs : List Char) : Prop :=
  ∃ index rule, token.IsFound cs index rule ∧
    ∀ other index' rule', Token.IsFound other cs index' rule' →
      other.span.start = token.span.start →
      (index' = index ∧ other = token) ∨ rule.Outranks index rule' index'

namespace Rule

/-- The rules of the table stand in the order of their ranks. -/
theorem pairwise_precedence : table.Pairwise (fun r r' => r.precedence ≤ r'.precedence) := by
  decide

/-- The table lists the rules by rank. -/
theorem outranks_of_lt {rule other : Rule} {index index' : Nat} (h : table[index]? = some rule)
    (h' : table[index']? = some other) (hlt : index < index') :
    rule.Outranks index other index' := by
  obtain ⟨hindex, rfl⟩ := List.getElem?_eq_some_iff.mp h
  obtain ⟨hindex', rfl⟩ := List.getElem?_eq_some_iff.mp h'
  have hle := List.pairwise_iff_getElem.mp pairwise_precedence index index' hindex hindex' hlt
  rcases Nat.lt_or_eq_of_le hle with hprecedence | hprecedence
  · exact .inl hprecedence
  · exact .inr ⟨hprecedence, hlt⟩

/-- A token of a rule is met where it begins. -/
theorem hit?_of_mem_findAll {rule : Rule} {before rest : List Char} {token : Token}
    (h : token ∈ rule.findAll (before ++ rest)) (hstart : token.span.start = byteLength before) :
    (rule.cursor before rest).hit? (byteLength before) rest = some token := by
  obtain ⟨before', rest', hsplit, -, hit⟩ := mem_findAll_iff.mp h
  have hlength : byteLength before = byteLength before' := by
    rw [← hstart, Precedence.start_of_hit? hit]
  obtain ⟨rfl, rfl⟩ := append_inj_of_byteLength hsplit hlength
  exact hit

end Rule

/-! ### Choices -/

namespace Precedence

/-- The precedence scan reaches the end of its last token. -/
theorem forward : scanner.Forward State.last where
  start := start_of_token?
  start_le_stop := by
    intro state position cs token h
    simp only [scanner, State.token?, Option.ite_none_left_eq_some] at h
    obtain ⟨cursor, -, hit⟩ := List.exists_of_findSome?_eq_some h.2
    exact Cursor.forward.start_le_stop hit
  reach_le := by
    intro state position cs token h
    simp only [scanner, State.token?, Option.ite_none_left_eq_some] at h
    exact Nat.not_lt.mp h.1
  reach_next := fun _ _ _ => rfl

/-- The token that leads among those found at a place. -/
def leader? (before rest : List Char) : Option Token :=
  Rule.table.findSome? fun rule => (rule.cursor before rest).hit? (byteLength before) rest

/-- No token of the scan reaches past the place behind `before`. -/
def IsOpen (before rest : List Char) : Prop :=
  ∀ token ∈ Strategy.precedence.body (before ++ rest),
    ¬ (token.span.start < byteLength before ∧ byteLength before < token.span.stop)

/-- The last token that counts reaches past a place exactly if some token does. -/
theorem last_after_le_iff (before rest : List Char) :
    (scanner.after initial 0 before rest).last ≤ byteLength before ↔ IsOpen before rest := by
  have h := forward.lt_reach_after_iff initial 0 before rest
  have hinitial : initial.last = 0 := rfl
  simp only [hinitial, Nat.zero_add, Nat.not_lt_zero, false_or] at h
  rw [← Nat.not_lt, h, IsOpen]
  push Not
  rfl

/-- The scan chooses what leads at the places that no token reaches past. -/
theorem mem_body_iff {cs : List Char} {token : Token} :
    token ∈ Strategy.precedence.body cs ↔ ∃ before rest, cs = before ++ rest ∧ rest ≠ [] ∧
      IsOpen before rest ∧ leader? before rest = some token := by
  have hplace (before rest : List Char) :
      scanner.token? (scanner.after initial 0 before rest) (0 + byteLength before) rest =
        some token ↔ IsOpen before rest ∧ leader? before rest = some token := by
    have hcursors := cursors_after before rest
    rw [← last_after_le_iff, ← Nat.not_lt, leader?, Nat.zero_add]
    generalize scanner.after initial 0 before rest = state at hcursors ⊢
    simp only [scanner, State.token?, Option.ite_none_left_eq_some, hcursors, List.findSome?_map]
    rfl
  rw [Strategy.body, Scanner.mem_run_iff]
  constructor
  · rintro ⟨before, c, rest, rfl, htoken⟩
    exact ⟨before, c :: rest, rfl, by simp, (hplace before (c :: rest)).mp htoken⟩
  · rintro ⟨before, rest, rfl, hne, hchosen⟩
    obtain ⟨c, rest, rfl⟩ := List.exists_cons_of_ne_nil hne
    exact ⟨before, c, rest, rfl, (hplace before (c :: rest)).mpr hchosen⟩

/-- The leader of a place begins there. -/
theorem start_of_leader? {before rest : List Char} {token : Token}
    (h : leader? before rest = some token) : token.span.start = byteLength before := by
  obtain ⟨rule, -, hit⟩ := List.exists_of_findSome?_eq_some h
  exact start_of_hit? hit

/-- What leads at a place has the best rank there. -/
theorem isBest_of_leader? {before rest : List Char} {token : Token} (hne : rest ≠ [])
    (h : leader? before rest = some token) : token.IsBest (before ++ rest) := by
  have hstart := start_of_leader? h
  rw [leader?, List.findSome?_eq_some_iff] at h
  obtain ⟨earlier, rule, later, htable, hit, hearlier⟩ := h
  have hindex : Rule.table[earlier.length]? = some rule := by
    rw [htable, List.getElem?_append_right (Nat.le_refl _), Nat.sub_self, List.getElem?_cons_zero]
  refine ⟨earlier.length, rule, ⟨hindex, ?_⟩, ?_⟩
  · exact Rule.mem_findAll_iff.mpr ⟨before, rest, rfl, hne, hit⟩
  · rintro other index' rule' ⟨hindex', hmem⟩ hsame
    have hit' := Rule.hit?_of_mem_findAll hmem (hsame.trans hstart)
    rcases Nat.lt_trichotomy index' earlier.length with hlt | heq | hgt
    · -- a rule that stands earlier finds nothing here
      have hrule' : rule' ∈ earlier := by
        rw [htable, List.getElem?_append_left hlt] at hindex'
        exact List.mem_of_getElem? hindex'
      rw [hearlier rule' hrule'] at hit'
      contradiction
    · rw [heq, hindex, Option.some.injEq] at hindex'
      rw [← hindex', hit, Option.some.injEq] at hit'
      exact .inl ⟨heq, hit'.symm⟩
    · exact .inr (Rule.outranks_of_lt hindex hindex' hgt)

/-- Every token of the precedence scan is the best that begins at its place. -/
theorem isBest_of_mem_body {cs : List Char} {token : Token}
    (h : token ∈ Strategy.precedence.body cs) : token.IsBest cs := by
  obtain ⟨before, rest, rfl, hne, -, hlead⟩ := mem_body_iff.mp h
  exact isBest_of_leader? hne hlead

/-- A token is chosen where some rule finds one and no chosen token reaches past. -/
theorem exists_start_iff {cs : List Char} {n : Nat} :
    (∃ token ∈ Strategy.precedence.body cs, token.span.start = n) ↔
      (∃ rule ∈ Rule.table, ∃ found ∈ rule.findAll cs, found.span.start = n) ∧
        ∀ token ∈ Strategy.precedence.body cs, ¬ (token.span.start < n ∧ n < token.span.stop) := by
  constructor
  · rintro ⟨token, htoken, rfl⟩
    obtain ⟨before, rest, rfl, hne, hopen, hlead⟩ := mem_body_iff.mp htoken
    obtain ⟨index, rule, ⟨hindex, hmem⟩, -⟩ := isBest_of_leader? hne hlead
    rw [start_of_leader? hlead]
    exact ⟨⟨rule, List.mem_of_getElem? hindex, token, hmem, start_of_leader? hlead⟩, hopen⟩
  · rintro ⟨⟨rule, hrule, found, hfound, rfl⟩, hopen⟩
    obtain ⟨before, rest, rfl, hne, hit⟩ := Rule.mem_findAll_iff.mp hfound
    rw [start_of_hit? hit] at hopen ⊢
    cases hlead : leader? before rest with
    | none =>
        rw [leader?, List.findSome?_eq_none_iff] at hlead
        rw [hlead rule hrule] at hit
        contradiction
    | some token =>
        exact ⟨token, mem_body_iff.mpr ⟨before, rest, rfl, hne, hopen, hlead⟩,
          start_of_leader? hlead⟩

/-- Each token of the precedence scan ends before the next begins. -/
theorem pairwise_body (cs : List Char) :
    (Strategy.precedence.body cs).Pairwise fun a b => a.span.stop ≤ b.span.start :=
  forward.pairwise_run initial 0 cs

end Precedence

/-- A token from a rule is not empty. -/
theorem Token.FromRule.start_lt_stop {token : Token} {cs : List Char} (h : token.FromRule cs) :
    token.span.start < token.span.stop := by
  obtain ⟨rule, hrule, before, taken, rest, -, ht, rfl⟩ := h
  obtain ⟨c, taken, rfl, -⟩ := ht.exists_cons hrule
  have hpos := Char.utf8Size_pos c
  simp only [Rule.token, byteLength_cons]
  omega

/-! ### Gaps -/

namespace Event

/-- The stretch of an event that is a gap. -/
def gap? : Event → Option Span
  | .accepted _ => none
  | .overlapped _ => none
  | .gap span => some span

/-- The gaps among some events. -/
def gaps (events : List Event) : List Span :=
  events.filterMap gap?

/-- Without events there are no gaps. -/
@[simp] theorem gaps_nil : gaps [] = [] := rfl

/-- A token that counts is no gap. -/
@[simp] theorem gaps_accepted (token : Token) (events : List Event) :
    gaps (.accepted token :: events) = gaps events := rfl

/-- A token that does not count is no gap. -/
@[simp] theorem gaps_overlapped (token : Token) (events : List Event) :
    gaps (.overlapped token :: events) = gaps events := rfl

/-- A gap is one of the gaps. -/
@[simp] theorem gaps_gap (span : Span) (events : List Event) :
    gaps (.gap span :: events) = span :: gaps events := rfl

/-- The gaps are those among the events. -/
theorem mem_gaps_iff {events : List Event} {span : Span} :
    span ∈ gaps events ↔ Event.gap span ∈ events := by
  rw [gaps, List.mem_filterMap]
  constructor
  · rintro ⟨event, hevent, hgap⟩
    cases event with
    | accepted token => contradiction
    | overlapped token => contradiction
    | gap other =>
        obtain rfl : other = span := Option.some.inj hgap
        exact hevent
  · intro h
    exact ⟨.gap span, h, rfl⟩

end Event

instance Span.decidableContains (span : Span) (n : Nat) : Decidable (span.Contains n) :=
  inferInstanceAs (Decidable (span.start ≤ n ∧ n < span.stop))

/-- The span reaches from the beginning of the other or before to its end or behind. -/
def Span.Encloses (span other : Span) : Prop :=
  span.start ≤ other.start ∧ other.stop ≤ span.stop

instance Span.decidableEncloses (span other : Span) : Decidable (span.Encloses other) :=
  inferInstanceAs (Decidable (span.start ≤ other.start ∧ other.stop ≤ span.stop))

namespace Precedence

/-- A gap does not end before it begins. -/
theorem start_le_stop_of_gap {last stop : Nat} {tokens : List Token} (hlast : last ≤ stop)
    (hstop : ∀ token ∈ Event.tokens (sweep last stop tokens), token.span.stop ≤ stop) {span : Span}
    (h : Event.gap span ∈ sweep last stop tokens) : span.start ≤ span.stop := by
  induction tokens generalizing last with
  | nil =>
      simp only [sweep, List.mem_singleton, Event.gap.injEq] at h
      rw [h]
      exact hlast
  | cons token tokens ih =>
      by_cases hlt : token.span.start < last
      · simp only [sweep, if_pos hlt, Event.tokens_overlapped, List.mem_cons, reduceCtorEq,
          false_or] at h hstop
        exact ih hlast hstop h
      · simp only [sweep, if_neg hlt, Event.tokens_gap, Event.tokens_accepted, List.mem_cons,
          Event.gap.injEq, reduceCtorEq, false_or] at h hstop
        rcases h with rfl | h
        · exact Nat.not_lt.mp hlt
        · exact ih (hstop token (.inl rfl)) (fun other hother => hstop other (.inr hother)) h

/-- Before the last token that counts there is neither a token nor a gap to come. -/
theorem count_sweep_eq_zero {last stop : Nat} {tokens : List Token}
    (hspan : ∀ token ∈ Event.tokens (sweep last stop tokens), token.span.start ≤ token.span.stop)
    {n : Nat} (hlast : n < last) :
    (Event.tokens (sweep last stop tokens)).countP (·.span.Contains n) = 0 ∧
      (Event.gaps (sweep last stop tokens)).countP (·.Contains n) = 0 := by
  obtain ⟨htokens, hgaps⟩ := le_start_of_mem_sweep hspan
  constructor
  · rw [List.countP_eq_zero]
    intro token htoken hcontains
    have hstart := htokens token htoken
    have hlow := (of_decide_eq_true hcontains).1
    omega
  · rw [List.countP_eq_zero]
    intro span hmem hcontains
    have hstart := hgaps span (Event.mem_gaps_iff.mp hmem)
    have hlow := (of_decide_eq_true hcontains).1
    omega

/-- Behind the last token that counts each byte lies in exactly one token or gap. -/
theorem count_sweep {last stop : Nat} {tokens : List Token}
    (hspan : ∀ token ∈ Event.tokens (sweep last stop tokens), token.span.start ≤ token.span.stop)
    {n : Nat} (hlast : last ≤ n) (hstop : n < stop) :
    (Event.tokens (sweep last stop tokens)).countP (·.span.Contains n) +
      (Event.gaps (sweep last stop tokens)).countP (·.Contains n) = 1 := by
  induction tokens generalizing last with
  | nil => simp [sweep, Span.Contains, hlast, hstop]
  | cons token tokens ih =>
      by_cases hlt : token.span.start < last
      · simp only [sweep, if_pos hlt, Event.tokens_overlapped, Event.gaps_overlapped] at hspan ⊢
        exact ih hspan hlast
      · simp only [sweep, if_neg hlt, Event.tokens_gap, Event.tokens_accepted, Event.gaps_gap,
          Event.gaps_accepted] at hspan ⊢
        have hhere := hspan token (by simp)
        have hlater : ∀ other ∈ Event.tokens (sweep token.span.stop stop tokens),
            other.span.start ≤ other.span.stop := fun other hother =>
          hspan other (List.mem_cons_of_mem _ hother)
        -- the byte lies in the gap before the token, in the token, or behind it
        by_cases hbehind : token.span.stop ≤ n
        · have htoken : ¬ token.span.Contains n := fun hin => Nat.not_lt.mpr hbehind hin.2
          have hgap : ¬ Span.Contains ⟨last, token.span.start⟩ n := by
            rintro ⟨-, hhigh⟩
            have hhigh : n < token.span.start := hhigh
            omega
          rw [List.countP_cons_of_neg (by simpa using htoken),
            List.countP_cons_of_neg (by simpa using hgap)]
          exact ih hlater hbehind
        · obtain ⟨hnone, hnogap⟩ := count_sweep_eq_zero hlater (Nat.not_le.mp hbehind)
          by_cases hbefore : n < token.span.start
          · have htoken : ¬ token.span.Contains n := fun hin => Nat.not_le.mpr hbefore hin.1
            have hgap : Span.Contains ⟨last, token.span.start⟩ n := ⟨hlast, hbefore⟩
            rw [List.countP_cons_of_neg (by simpa using htoken),
              List.countP_cons_of_pos (by simpa using hgap), hnone, hnogap]
          · have htoken : token.span.Contains n := ⟨Nat.not_lt.mp hbefore, Nat.not_le.mp hbehind⟩
            have hgap : ¬ Span.Contains ⟨last, token.span.start⟩ n := fun hin => hbefore hin.2
            rw [List.countP_cons_of_pos (by simpa using htoken),
              List.countP_cons_of_neg (by simpa using hgap), hnone, hnogap]

/-- Every accepted token ends inside the text. -/
theorem stop_le_of_mem_events {cs : List Char} {token : Token}
    (h : token ∈ Event.tokens (events cs)) : token.span.stop ≤ byteLength cs :=
  (fromRule_of_mem_events h).standsIn.stop_le

/-- No gap of a whole text ends before it begins. -/
theorem start_le_stop_of_mem_gaps {cs : List Char} {span : Span}
    (h : span ∈ Event.gaps (events cs)) : span.start ≤ span.stop :=
  start_le_stop_of_gap (Nat.zero_le _) (fun _ => stop_le_of_mem_events) (Event.mem_gaps_iff.mp h)

/-- The gaps that are not blank. -/
def dropped (cs : List Char) : List Span :=
  (Event.gaps (events cs)).filter fun span => (Log.ofGap? cs span).isSome

/-- A gap with a character in it that is not blank is dropped. -/
theorem isSome_ofGap? {before after : List Char} {c : Char} (hc : isBlank c = false) {span : Span}
    (h : Event.gap span ∈ events (before ++ c :: after)) (hin : span.Contains (byteLength before)) :
    (Log.ofGap? (before ++ c :: after) span).isSome = true := by
  obtain ⟨hstart, hstop⟩ := boundaries_of_gap h
  have hmem : c ∈ slice span.start span.stop (before ++ c :: after) :=
    (mem_slice_iff hstart hstop).mpr ⟨before, after, rfl, hin⟩
  have hne : trim (slice span.start span.stop (before ++ c :: after)) ≠ [] := by
    intro hempty
    have hblank := trim_eq_nil_iff.mp hempty c hmem
    rw [hc] at hblank
    contradiction
  simp [Log.ofGap?, hne]

/-- A character that is not blank lies in exactly one token or dropped gap. -/
theorem count_encloses {before after : List Char} {c : Char} (hc : isBlank c = false) :
    (Strategy.precedence.body (before ++ c :: after)).countP
        (·.span.Encloses ⟨byteLength before, byteLength (before ++ [c])⟩) +
      (dropped (before ++ c :: after)).countP
        (·.Encloses ⟨byteLength before, byteLength (before ++ [c])⟩) = 1 := by
  have hpos := Char.utf8Size_pos c
  have hlength : byteLength (before ++ [c]) = byteLength before + c.utf8Size := by simp
  -- what begins and ends between characters encloses a character with its first byte
  have hencloses {span : Span} (hstop : IsBoundary (before ++ c :: after) span.stop) :
      span.Encloses ⟨byteLength before, byteLength (before ++ [c])⟩ ↔
        span.Contains (byteLength before) := by
    constructor
    · rintro ⟨hlow, hhigh⟩
      have hhigh : byteLength (before ++ [c]) ≤ span.stop := hhigh
      exact ⟨hlow, by omega⟩
    · rintro ⟨hlow, hhigh⟩
      exact ⟨hlow, hstop.le_of_lt hhigh⟩
  have hone := @count_sweep 0 (byteLength (before ++ c :: after))
    (leaders (Rule.ranked.map (⟨·, 0⟩)) 0 (before ++ c :: after))
    (fun token htoken => (fromRule_of_mem_events htoken).standsIn.start_le_stop)
    (byteLength before) (Nat.zero_le _) (by rw [byteLength_append, byteLength_cons]; omega)
  rw [← tokens_events, dropped, List.countP_filter, ← hone]
  congr 1
  · apply List.countP_congr
    intro token htoken
    have hstop := (fromRule_of_mem_events htoken).standsIn.boundaries.2
    simp only [decide_eq_true_eq]
    exact hencloses hstop
  · apply List.countP_congr
    intro span hspan
    have hgap := Event.mem_gaps_iff.mp hspan
    have hstop := (boundaries_of_gap hgap).2
    simp only [Bool.and_eq_true, decide_eq_true_eq]
    rw [hencloses hstop]
    exact ⟨And.left, fun hin => ⟨hin, isSome_ofGap? hc hgap hin⟩⟩

end Precedence

/-- The record of text that was dropped. -/
def Log.dropping (cs : List Char) (span : Span) : Record :=
  ⟨.debug, "dropping unmatched text " ++
    quote (String.ofList (trim (slice span.start span.stop cs))) ++ " at " ++ spanText span⟩

/-- The records of dropped text are those of the dropped gaps, in order. -/
theorem filter_tokenizeLog (text : String) :
    (Strategy.precedence.tokenizeLog text).filter Record.reportsDropped =
      (Precedence.dropped text.toList).map (Log.dropping text.toList) := by
  rw [Strategy.tokenizeLog, Strategy.events, Precedence.dropped]
  generalize Precedence.events text.toList = events
  induction events with
  | nil => rfl
  | cons event events ih =>
      cases event with
      | accepted token =>
          have hevent : Log.ofEvent? text.toList (.accepted token) = some (Log.ofToken token) := rfl
          rw [List.filterMap_cons_some hevent,
            List.filter_cons_of_neg (by simp [Log.reportsDropped_ofToken]), ih, Event.gaps_accepted]
      -- A token that is left out has a record too, but of another kind.
      | overlapped token =>
          obtain ⟨record, hrecord⟩ : ∃ record,
              Log.ofEvent? text.toList (.overlapped token) = some record := ⟨_, rfl⟩
          have hquiet : ¬ record.reportsDropped = true := by
            intro hdropped
            obtain ⟨span, hgap, -⟩ := Log.exists_gap_of_reportsDropped hrecord hdropped
            contradiction
          rw [List.filterMap_cons_some hrecord, List.filter_cons_of_neg hquiet, ih,
            Event.gaps_overlapped]
      | gap span =>
          have hevent : Log.ofEvent? text.toList (.gap span) = Log.ofGap? text.toList span := rfl
          rw [Event.gaps_gap]
          cases hgap : Log.ofGap? text.toList span with
          | none =>
              rw [List.filterMap_cons_none (hevent.trans hgap), ih,
                List.filter_cons_of_neg (by simp [hgap])]
          | some record =>
              have hrecord : record = Log.dropping text.toList span := by
                simp only [Log.ofGap?, Option.ite_none_left_eq_some, Option.some.injEq] at hgap
                exact hgap.2.symm
              rw [List.filterMap_cons_some (hevent.trans hgap),
                List.filter_cons_of_pos (Log.reportsDropped_of_ofGap? hgap), ih,
                List.filter_cons_of_pos (by simp [hgap]), List.map_cons, hrecord]

/-! ### The whole text -/

/-- The tokens of the precedence strategy before the end of the query begin where some rule finds a
token and none of them reaches past, and each is the best-ranked there.  They and the gaps between
them begin and end between characters, one behind the other, and every character that is not blank
lies in exactly one token or in exactly one gap that a record reports as dropped. -/
theorem precedence_selects_best_matches (text : String) :
    ∃ tokens, Strategy.precedence.tokenize text = tokens ++ [.terminator text.utf8ByteSize] ∧
      (∀ n, (∃ token ∈ tokens, token.span.start = n) ↔
        (∃ rule ∈ Rule.table, ∃ found ∈ rule.findAll text.toList, found.span.start = n) ∧
          ∀ token ∈ tokens, ¬ (token.span.start < n ∧ n < token.span.stop)) ∧
      (∀ token ∈ tokens, token.IsBest text.toList) ∧
      (tokens.Pairwise fun a b => a.span.stop ≤ b.span.start) ∧
      (∀ token ∈ tokens, token.span.start < token.span.stop ∧
        IsBoundary text.toList token.span.start ∧ IsBoundary text.toList token.span.stop) ∧
      (∀ span ∈ Event.gaps (Precedence.events text.toList), span.start ≤ span.stop ∧
        IsBoundary text.toList span.start ∧ IsBoundary text.toList span.stop) ∧
      (Strategy.precedence.tokenizeLog text).filter Record.reportsDropped =
        (Precedence.dropped text.toList).map (Log.dropping text.toList) ∧
      (∀ before c after, text.toList = before ++ c :: after → isBlank c = false →
        tokens.countP (·.span.Encloses ⟨byteLength before, byteLength (before ++ [c])⟩) +
          (Precedence.dropped text.toList).countP
            (·.Encloses ⟨byteLength before, byteLength (before ++ [c])⟩) = 1) := by
  refine ⟨Strategy.precedence.body text.toList, ?_, ?_, ?_, Precedence.pairwise_body _, ?_, ?_,
    filter_tokenizeLog text, ?_⟩
  · rw [Strategy.tokenize_eq_body, byteLength_toList]
  · intro n
    exact Precedence.exists_start_iff
  · intro token htoken
    exact Precedence.isBest_of_mem_body htoken
  · intro token htoken
    have horigin := Precedence.origin_of_mem_run htoken
    exact ⟨horigin.start_lt_stop, horigin.standsIn.boundaries⟩
  · intro span hspan
    exact ⟨Precedence.start_le_stop_of_mem_gaps hspan,
      Precedence.boundaries_of_gap (Event.mem_gaps_iff.mp hspan)⟩
  · intro before c after hsplit hc
    rw [hsplit]
    exact Precedence.count_encloses hc

/-- Between two words, where a longer word begins inside the first of them, a letter lies in the
stretch that is reported as dropped and in no token. -/
theorem precedence_selects_best_matches_around_overlap :
    ∃ tokens, Strategy.precedence.tokenize "inot in" = tokens ++ [.terminator 7] ∧
      (∀ token ∈ tokens, token.IsBest "inot in".toList) ∧
      (Strategy.precedence.tokenizeLog "inot in").filter Record.reportsDropped =
        [⟨.debug, "dropping unmatched text \"ot\" at 2..5"⟩] ∧
      tokens.countP (·.span.Encloses ⟨3, 4⟩) +
        (Precedence.dropped "inot in".toList).countP (·.Encloses ⟨3, 4⟩) = 1 := by
  have hsize : "inot in".utf8ByteSize = 7 := by decide
  have hdropped : (Precedence.dropped "inot in".toList).map (Log.dropping "inot in".toList) =
      [⟨.debug, "dropping unmatched text \"ot\" at 2..5"⟩] := by
    decide +kernel
  obtain ⟨tokens, htokens, -, hbest, -, -, -, hlog, hcount⟩ :=
    precedence_selects_best_matches "inot in"
  rw [hsize] at htokens
  rw [hdropped] at hlog
  exact ⟨tokens, htokens, hbest, hlog,
    hcount "ino".toList 't' " in".toList (by decide) (by decide)⟩

/-- The longer word is found, but the first word reaches past its beginning. -/
example : Strategy.precedence.tokenize "inot in" =
    [⟨.operator .oneOf, "in", ⟨0, 2⟩⟩, ⟨.operator .oneOf, "in", ⟨5, 7⟩⟩, .terminator 7] := by
  decide +kernel

end ErrorQuery
