import ErrorQuery.Compiler
import ErrorQuery.Proofs.Scan.Places
import Mathlib.Data.List.TakeWhile

/-!
# What the precedence scan covers and what it leaves aside

The precedence scan reports the stretches between the tokens that count as gaps.  A place of the
text lies in a gap exactly if no such token covers it (`Precedence.exists_gap_iff`), and gaps begin
and end between characters.  So a record of dropped text is left behind exactly if some character
that is not blank stands in no token (`covers_iff_log`).
-/

set_option autoImplicit false

namespace ErrorQuery

open Text

/-- Whether a byte lies in a span. -/
def Span.Contains (span : Span) (n : Nat) : Prop :=
  span.start ≤ n ∧ n < span.stop

/-- Every character of a text that is not blank lies in one of the tokens; the text begins at the
byte `position`. -/
def Covers (tokens : List Token) (position : Nat) (cs : List Char) : Prop :=
  ∀ before c after, cs = before ++ c :: after → isBlank c = false →
    ∃ token ∈ tokens, token.span.Contains (position + byteLength before)

/-! ### Places in a text -/

namespace Text

/-- The characters between two places of a text are those that begin there. -/
theorem mem_slice_iff {cs : List Char} {start stop : Nat} (hstart : IsBoundary cs start)
    (hstop : IsBoundary cs stop) {c : Char} :
    c ∈ slice start stop cs ↔ ∃ before after, cs = before ++ c :: after ∧
      start ≤ byteLength before ∧ byteLength before < stop := by
  obtain ⟨front, rest, rfl, rfl⟩ := hstart
  obtain ⟨front', rest', heq, rfl⟩ := hstop
  by_cases hle : byteLength front ≤ byteLength front'
  · obtain ⟨inside, rfl, rfl⟩ := exists_append_of_byteLength_le heq hle
    rw [byteLength_append, ← List.append_assoc, slice_append]
    constructor
    · intro hmem
      obtain ⟨before, after, rfl⟩ := List.append_of_mem hmem
      refine ⟨front ++ before, after ++ rest', by simp, ?_, ?_⟩
      · rw [byteLength_append]
        omega
      · have hpos := Char.utf8Size_pos c
        simp only [byteLength_append, byteLength_cons]
        omega
    · rintro ⟨before, after, hsplit, hlow, hhigh⟩
      rw [List.append_assoc] at hsplit
      obtain ⟨before, rfl, hinside⟩ := exists_append_of_byteLength_le hsplit hlow
      rw [byteLength_append] at hhigh
      obtain ⟨middle, rfl, hrest⟩ :=
        exists_append_of_byteLength_le hinside.symm (by omega)
      -- something of `inside` is left for `c`, since `before` is shorter
      cases middle with
      | nil =>
          rw [List.append_nil] at hhigh
          omega
      | cons d middle =>
          obtain ⟨rfl, -⟩ := List.cons.inj hrest
          simp
  · constructor
    · intro hmem
      have hzero : byteLength front' - byteLength front = 0 := by omega
      rw [slice, dropBytes_append, hzero] at hmem
      cases rest with
      | nil => simp [takeBytes] at hmem
      | cons d rest => simp [takeBytes] at hmem
    · rintro ⟨before, after, -, hlow, hhigh⟩
      omega

/-- Trimming leaves nothing exactly of a text of blanks. -/
theorem trim_eq_nil_iff {cs : List Char} : trim cs = [] ↔ ∀ c ∈ cs, isBlank c = true := by
  unfold trim trimFront
  rw [List.reverse_eq_nil_iff, List.dropWhile_eq_nil_iff]
  constructor
  · intro h
    have hnone : cs.dropWhile isBlank = [] := by
      cases hdrop : cs.dropWhile isBlank with
      | nil => rfl
      | cons c rest =>
          have hhead := List.head?_dropWhile_not isBlank cs
          rw [hdrop] at hhead h
          have hc : isBlank c = false := hhead
          rw [h c (by simp)] at hc
          contradiction
    exact List.dropWhile_eq_nil_iff.mp hnone
  · intro h c hc
    exact h c ((List.dropWhile_sublist isBlank).subset (List.mem_reverse.mp hc))

end Text

/-! ### Gaps -/

namespace Precedence

/-- Neither a token nor a gap begins before the end of the token accepted before. -/
theorem le_start_of_mem_sweep {last stop : Nat} {tokens : List Token}
    (hspan : ∀ token ∈ Event.tokens (sweep last stop tokens), token.span.start ≤ token.span.stop) :
    (∀ token ∈ Event.tokens (sweep last stop tokens), last ≤ token.span.start) ∧
      ∀ span, Event.gap span ∈ sweep last stop tokens → last ≤ span.start := by
  induction tokens generalizing last with
  | nil => simp [sweep]
  | cons token tokens ih =>
      by_cases hlt : token.span.start < last
      · simp only [sweep, if_pos hlt, Event.tokens_overlapped] at hspan ⊢
        simpa using ih hspan
      · simp only [sweep, if_neg hlt, Event.tokens_gap, Event.tokens_accepted] at hspan ⊢
        have hhere := hspan token (by simp)
        obtain ⟨htokens, hgaps⟩ :=
          ih fun other hother => hspan other (List.mem_cons_of_mem _ hother)
        constructor
        · intro other hother
          rcases List.mem_cons.mp hother with rfl | hother
          · omega
          · have hlater := htokens other hother
            omega
        · intro span hmem
          simp only [List.mem_cons, Event.gap.injEq, reduceCtorEq, false_or] at hmem
          rcases hmem with rfl | hmem
          · exact Nat.le_refl last
          · have hlater := hgaps span hmem
            omega

/-- Behind the last token that counts, a place lies in a gap exactly if no token covers it. -/
theorem exists_gap_iff {last stop : Nat} {tokens : List Token}
    (hspan : ∀ token ∈ Event.tokens (sweep last stop tokens), token.span.start ≤ token.span.stop)
    {n : Nat} (hlast : last ≤ n) (hstop : n < stop) :
    (∃ span, Event.gap span ∈ sweep last stop tokens ∧ span.Contains n) ↔
      ∀ token ∈ Event.tokens (sweep last stop tokens), ¬ token.span.Contains n := by
  induction tokens generalizing last with
  | nil => simp [sweep, Span.Contains, hlast, hstop]
  | cons token tokens ih =>
      by_cases hlt : token.span.start < last
      · simp only [sweep, if_pos hlt, Event.tokens_overlapped] at hspan ⊢
        simpa using ih hspan hlast
      · simp only [sweep, if_neg hlt, Event.tokens_gap, Event.tokens_accepted] at hspan ⊢
        have hhere := hspan token (by simp)
        have hlater : ∀ other ∈ Event.tokens (sweep token.span.stop stop tokens),
            other.span.start ≤ other.span.stop := fun other hother =>
          hspan other (List.mem_cons_of_mem _ hother)
        obtain ⟨htokens, hgaps⟩ := le_start_of_mem_sweep hlater
        simp only [List.mem_cons, Event.gap.injEq, reduceCtorEq, false_or]
        -- the place lies in the gap before the token, in the token, or behind it
        by_cases hbefore : n < token.span.start
        · constructor
          · rintro - other (rfl | hother) ⟨hlow, -⟩
            · omega
            · have hstart := htokens other hother
              omega
          · intro _
            exact ⟨⟨last, token.span.start⟩, .inl rfl, hlast, hbefore⟩
        · by_cases hinside : n < token.span.stop
          · constructor
            · rintro ⟨span, rfl | hmem, hlow, hhigh⟩
              · exact absurd hhigh hbefore
              · have hstart := hgaps span hmem
                omega
            · intro hnone
              exact absurd ⟨Nat.not_lt.mp hbefore, hinside⟩ (hnone token (.inl rfl))
          · have hbehind := ih hlater (Nat.not_lt.mp hinside)
            constructor
            · rintro ⟨span, rfl | hmem, hspan'⟩ other hother
              · exact absurd hspan'.2 hbefore
              · rcases hother with rfl | hother
                · exact fun hcontains => hinside hcontains.2
                · exact hbehind.mp ⟨span, hmem, hspan'⟩ other hother
            · intro hnone
              obtain ⟨span, hmem, hcontains⟩ :=
                hbehind.mpr fun other hother => hnone other (.inr hother)
              exact ⟨span, .inr hmem, hcontains⟩

/-- A gap begins where a token has ended or at the front, and ends where a token begins or at the
end. -/
theorem ends_of_gap {last stop : Nat} {tokens : List Token} {span : Span}
    (h : Event.gap span ∈ sweep last stop tokens) :
    (span.start = last ∨
        ∃ token ∈ Event.tokens (sweep last stop tokens), span.start = token.span.stop) ∧
      (span.stop = stop ∨
        ∃ token ∈ Event.tokens (sweep last stop tokens), span.stop = token.span.start) := by
  induction tokens generalizing last with
  | nil =>
      simp only [sweep, List.mem_singleton, Event.gap.injEq] at h
      subst h
      exact ⟨.inl rfl, .inl rfl⟩
  | cons token tokens ih =>
      by_cases hlt : token.span.start < last
      · simp only [sweep, if_pos hlt, Event.tokens_overlapped, List.mem_cons, reduceCtorEq,
          false_or] at h ⊢
        exact ih h
      · simp only [sweep, if_neg hlt, Event.tokens_gap, Event.tokens_accepted, List.mem_cons,
          Event.gap.injEq, reduceCtorEq, false_or] at h ⊢
        rcases h with rfl | h
        · exact ⟨.inl rfl, .inr ⟨token, .inl rfl, rfl⟩⟩
        · obtain ⟨hstart, hstop⟩ := ih h
          constructor
          · rcases hstart with hstart | ⟨other, hother, hstart⟩
            · exact .inr ⟨token, .inl rfl, hstart⟩
            · exact .inr ⟨other, .inr hother, hstart⟩
          · rcases hstop with hstop | ⟨other, hother, hstop⟩
            · exact .inl hstop
            · exact .inr ⟨other, .inr hother, hstop⟩

/-! ### The whole text -/

/-- The events of the precedence scan accept the tokens of its body. -/
theorem tokens_events (cs : List Char) :
    Event.tokens (events cs) = Strategy.precedence.body cs := by
  rw [events, tokens_sweep_eq_run, Rule.ranked_eq_table]
  rfl

/-- Every accepted token is what some rule takes. -/
theorem fromRule_of_mem_events {cs : List Char} {token : Token}
    (h : token ∈ Event.tokens (events cs)) : token.FromRule cs := by
  rw [tokens_events] at h
  exact origin_of_mem_run h

/-- A gap begins and ends between characters. -/
theorem boundaries_of_gap {cs : List Char} {span : Span} (h : Event.gap span ∈ events cs) :
    IsBoundary cs span.start ∧ IsBoundary cs span.stop := by
  obtain ⟨hstart, hstop⟩ := ends_of_gap h
  constructor
  · rcases hstart with hstart | ⟨token, htoken, hstart⟩
    · exact ⟨[], cs, rfl, hstart.symm⟩
    · rw [hstart]
      exact (fromRule_of_mem_events htoken).standsIn.boundaries.2
  · rcases hstop with hstop | ⟨token, htoken, hstop⟩
    · exact ⟨cs, [], by simp, hstop.symm⟩
    · rw [hstop]
      exact (fromRule_of_mem_events htoken).standsIn.boundaries.1

/-- The tokens cover a text exactly if no gap is worth a record. -/
theorem covers_iff_gaps (cs : List Char) :
    Covers (Strategy.precedence.body cs) 0 cs ↔
      ∀ span, Event.gap span ∈ events cs → Log.ofGap? cs span = none := by
  -- a gap is dropped silently exactly if all in it is blank
  have hgap : ∀ span, Event.gap span ∈ events cs → (Log.ofGap? cs span = none ↔
      ∀ before c after, cs = before ++ c :: after → span.Contains (byteLength before) →
        isBlank c = true) := by
    intro span hmem
    obtain ⟨hstart, hstop⟩ := boundaries_of_gap hmem
    have hnone : Log.ofGap? cs span = none ↔ trim (slice span.start span.stop cs) = [] := by
      simp [Log.ofGap?]
    rw [hnone, trim_eq_nil_iff]
    constructor
    · intro hblank before c after hsplit hcontains
      exact hblank c ((mem_slice_iff hstart hstop).mpr ⟨before, after, hsplit, hcontains⟩)
    · intro hblank c hc
      obtain ⟨before, after, hsplit, hcontains⟩ := (mem_slice_iff hstart hstop).mp hc
      exact hblank before c after hsplit hcontains
  -- a character lies in a gap exactly if it lies in no token
  have hplace : ∀ before c after, cs = before ++ c :: after →
      ((∃ span, Event.gap span ∈ events cs ∧ span.Contains (byteLength before)) ↔
        ∀ token ∈ Strategy.precedence.body cs, ¬ token.span.Contains (byteLength before)) := by
    intro before c after hsplit
    rw [← tokens_events]
    apply exists_gap_iff
    · intro token htoken
      exact (fromRule_of_mem_events htoken).standsIn.start_le_stop
    · exact Nat.zero_le _
    · have hpos := Char.utf8Size_pos c
      rw [hsplit, byteLength_append, byteLength_cons]
      omega
  constructor
  · intro hcovers span hmem
    rw [hgap span hmem]
    intro before c after hsplit hcontains
    by_contra hc
    obtain ⟨token, htoken, hinside⟩ := hcovers before c after hsplit (by simpa using hc)
    rw [Nat.zero_add] at hinside
    exact (hplace before c after hsplit).mp ⟨span, hmem, hcontains⟩ token htoken hinside
  · intro hgaps before c after hsplit hc
    rw [Nat.zero_add]
    by_contra hnone
    push Not at hnone
    obtain ⟨span, hmem, hcontains⟩ := (hplace before c after hsplit).mpr hnone
    have hblank := (hgap span hmem).mp (hgaps span hmem) before c after hsplit hcontains
    rw [hc] at hblank
    contradiction

end Precedence

/-! ### Records of dropped text -/

/-- Whether a record reports text that was dropped. -/
def Record.reportsDropped (record : Record) : Bool :=
  "dropping unmatched text".toList.isPrefixOf record.message.toList

namespace Log

/-- The record of a gap reports dropped text. -/
theorem reportsDropped_of_ofGap? {cs : List Char} {span : Span} {record : Record}
    (h : ofGap? cs span = some record) : record.reportsDropped = true := by
  simp only [ofGap?, Option.ite_none_left_eq_some, Option.some.injEq] at h
  obtain ⟨-, rfl⟩ := h
  simp [Record.reportsDropped, List.isPrefixOf]

/-- The record of a token does not report dropped text. -/
theorem reportsDropped_ofToken (token : Token) : (ofToken token).reportsDropped = false := by
  unfold ofToken
  split
  · simp [Record.reportsDropped, List.isPrefixOf]
  · simp [Record.reportsDropped, List.isPrefixOf]

/-- Only a gap leaves a record of dropped text. -/
theorem exists_gap_of_reportsDropped {cs : List Char} {event : Event} {record : Record}
    (h : ofEvent? cs event = some record) (hdropped : record.reportsDropped = true) :
    ∃ span, event = .gap span ∧ ofGap? cs span = some record := by
  cases event with
  | accepted token =>
      obtain rfl : ofToken token = record := Option.some.inj h
      rw [reportsDropped_ofToken] at hdropped
      contradiction
  | overlapped token =>
      obtain rfl := Option.some.inj h
      simp [Record.reportsDropped, List.isPrefixOf] at hdropped
  | gap span => exact ⟨span, rfl, h⟩

end Log

/-- The end of a query covers nothing. -/
theorem covers_tokenize_iff (strategy : Strategy) (text : String) :
    Covers (strategy.tokenize text) 0 text.toList ↔
      Covers (strategy.body text.toList) 0 text.toList := by
  constructor
  · intro hcovers before c after hsplit hc
    obtain ⟨token, htoken, hcontains⟩ := hcovers before c after hsplit hc
    rw [Strategy.tokenize_eq_body, List.mem_append, List.mem_singleton] at htoken
    rcases htoken with htoken | rfl
    · exact ⟨token, htoken, hcontains⟩
    · -- the end of the query has no extent
      obtain ⟨hlow, hhigh⟩ := hcontains
      exact absurd (Nat.lt_of_le_of_lt hlow hhigh) (Nat.lt_irrefl _)
  · intro hcovers before c after hsplit hc
    obtain ⟨token, htoken, hcontains⟩ := hcovers before c after hsplit hc
    rw [Strategy.tokenize_eq_body]
    exact ⟨token, List.mem_append_left _ htoken, hcontains⟩

/-- The tokens of a precedence scan cover the text exactly if no record reports dropped text. -/
theorem covers_iff_log (text : String) :
    Covers (Strategy.precedence.tokenize text) 0 text.toList ↔
      ∀ record ∈ Strategy.precedence.tokenizeLog text, record.reportsDropped = false := by
  rw [covers_tokenize_iff, Precedence.covers_iff_gaps]
  constructor
  · intro hgaps record hrecord
    obtain ⟨event, hevent, hof⟩ := List.mem_filterMap.mp hrecord
    by_contra hdropped
    obtain ⟨span, rfl, hgap⟩ := Log.exists_gap_of_reportsDropped hof (by simpa using hdropped)
    rw [hgaps span hevent] at hgap
    contradiction
  · intro hlog span hmem
    cases hgap : Log.ofGap? text.toList span with
    | none => rfl
    | some record =>
        have hrecord : record ∈ Strategy.precedence.tokenizeLog text :=
          List.mem_filterMap.mpr ⟨.gap span, hmem, hgap⟩
        have hdropped := Log.reportsDropped_of_ofGap? hgap
        rw [hlog record hrecord] at hdropped
        contradiction

end ErrorQuery
