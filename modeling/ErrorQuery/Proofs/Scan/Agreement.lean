import ErrorQuery.Proofs.Scan.Origin

/-!
# The precedence scan of a tiling

Where a text falls into tokens and blanks, the precedence scan finds the same tokens, but for the
numbers that stand directly behind a moment (`withoutGlued`): the search for numbers finds the
whole run of digits, which begins inside the moment and is discarded with it.

The proof walks along the tiling.  Between two tiles the scan is `Ready`: the text so far is
settled, no quoted text is open, the last token that counts has ended, and the text ends in a
digit just if a moment has ended there.  Each tile keeps the scan ready, and a tile is found unless
it is a number that a cursor misses.
-/

set_option autoImplicit false

namespace ErrorQuery

open Text

/-- Whether a token is a number that begins where a moment has ended. -/
def Token.isGluedTo (token : Token) (previous : Option Token) : Bool :=
  token.kind == .number &&
    previous.any fun p => p.kind == .dateTime && p.span.stop == token.span.start

/-- The tokens that are no numbers glued to the token before them; `previous` is the token in
front of the first. -/
def withoutGlued (previous : Option Token) : List Token → List Token
  | [] => []
  | token :: tokens =>
      if token.isGluedTo previous then withoutGlued (some token) tokens
      else token :: withoutGlued (some token) tokens

/-! ### Steps of the precedence scan -/

namespace Precedence

/-- The state behind `before` in front of `rest`, if the last token that counts ends at `last`. -/
def stateAt (before rest : List Char) (last : Nat) : State :=
  ⟨Rule.table.map (·.cursor before rest), last⟩

/-- The scan moves on by one character. -/
theorem run_stateAt (before cs : List Char) (c : Char) (last : Nat) :
    scanner.run (stateAt before (c :: cs) last) (byteLength before) (c :: cs) =
      ((stateAt before (c :: cs) last).token? (byteLength before) (c :: cs)).toList ++
        scanner.run (stateAt (before ++ [c]) cs
          ((((stateAt before (c :: cs) last).token? (byteLength before) (c :: cs)).map
            (·.span.stop)).getD last)) (byteLength (before ++ [c])) cs := by
  have hcursors : (stateAt before (c :: cs) last).cursors.map
      (·.pass (byteLength before) (c :: cs)) = Rule.table.map (·.cursor (before ++ [c]) cs) := by
    rw [stateAt, List.map_map]
    exact List.map_congr_left fun rule _ => (Rule.cursor_concat rule before c cs).symm
  rw [Scanner.run, byteLength_append, byteLength_cons, byteLength_nil, Nat.add_zero]
  simp only [scanner, hcursors]
  rfl

/-- Where no token begins, the scan goes on behind the character. -/
theorem run_quiet {before cs : List Char} {c : Char} {last : Nat}
    (h : (stateAt before (c :: cs) last).token? (byteLength before) (c :: cs) = none) :
    scanner.run (stateAt before (c :: cs) last) (byteLength before) (c :: cs) =
      scanner.run (stateAt (before ++ [c]) cs last) (byteLength (before ++ [c])) cs := by
  rw [run_stateAt, h]
  rfl

/-- Where a token begins, it is found, and the scan goes on until its end. -/
theorem run_hit {before cs : List Char} {c : Char} {last : Nat} {token : Token}
    (h : (stateAt before (c :: cs) last).token? (byteLength before) (c :: cs) = some token) :
    scanner.run (stateAt before (c :: cs) last) (byteLength before) (c :: cs) =
      token :: scanner.run (stateAt (before ++ [c]) cs token.span.stop)
        (byteLength (before ++ [c])) cs := by
  rw [run_stateAt, h]
  rfl

/-- Where no token begins inside a stretch, the scan goes on behind it. -/
theorem run_quiet_append {before middle rest : List Char} {last : Nat}
    (h : ∀ front c back, middle = front ++ c :: back →
      (stateAt (before ++ front) (c :: back ++ rest) last).token? (byteLength (before ++ front))
        (c :: back ++ rest) = none) :
    scanner.run (stateAt before (middle ++ rest) last) (byteLength before) (middle ++ rest) =
      scanner.run (stateAt (before ++ middle) rest last) (byteLength (before ++ middle)) rest := by
  induction middle generalizing before with
  | nil => simp
  | cons c middle ih =>
      have hfirst := h [] c middle rfl
      rw [List.append_nil] at hfirst
      rw [List.cons_append] at hfirst ⊢
      rw [run_quiet hfirst]
      have hrest := @ih (before ++ [c]) fun front d back heq => by
        have hlater := h (c :: front) d back (by rw [heq, List.cons_append])
        rwa [List.append_cons] at hlater
      rw [hrest, List.append_assoc, List.singleton_append]

/-- No token begins before the end of the last one. -/
theorem token?_of_lt {state : State} {position : Nat} (h : position < state.last)
    (cs : List Char) : state.token? position cs = none := by
  rw [State.token?, if_pos h]

/-- No token begins where no cursor meets one. -/
theorem token?_of_none {before cs : List Char} {last : Nat}
    (h : ∀ rule ∈ Rule.table, (rule.cursor before cs).hit? (byteLength before) cs = none) :
    (stateAt before cs last).token? (byteLength before) cs = none := by
  rw [State.token?]
  split
  · rfl
  · simpa [stateAt] using h

/-- The token of a leading rule counts if its cursor is free and the last token has ended. -/
theorem token?_of_leads {before taken rest : List Char} {last : Nat} {rule : Rule}
    (hlast : last ≤ byteLength before) (hlead : rule.Leads taken rest)
    (hfree : (rule.cursor before (taken ++ rest)).free ≤ byteLength before) :
    (stateAt before (taken ++ rest) last).token? (byteLength before) (taken ++ rest) =
      some (rule.token (byteLength before) taken) := by
  obtain ⟨earlier, later, htable, ht, hearlier⟩ := hlead
  have hcount : ¬ byteLength before < (stateAt before (taken ++ rest) last).last :=
    Nat.not_lt.mpr hlast
  rw [State.token?, if_neg hcount, List.findSome?_eq_some_iff]
  refine ⟨earlier.map (·.cursor before (taken ++ rest)), rule.cursor before (taken ++ rest),
    later.map (·.cursor before (taken ++ rest)), by simp [stateAt, htable], ?_, ?_⟩
  · rw [Cursor.hit?, if_pos hfree, Rule.rule_cursor, Rule.tokenAt?_of_takes ht]
  · intro cursor hcursor
    obtain ⟨r, hr, rfl⟩ := List.mem_map.mp hcursor
    exact Rule.hit?_cursor_of_none (hearlier r hr) before (byteLength before)

/-- The token of a leading rule whose cursor is free is found, and the scan goes on behind it. -/
theorem run_leads {before taken rest : List Char} {last : Nat} {rule : Rule}
    (hlast : last ≤ byteLength before) (hlead : rule.Leads taken rest)
    (hfree : (rule.cursor before (taken ++ rest)).free ≤ byteLength before) :
    scanner.run (stateAt before (taken ++ rest) last) (byteLength before) (taken ++ rest) =
      rule.token (byteLength before) taken ::
        scanner.run (stateAt (before ++ taken) rest (byteLength (before ++ taken)))
          (byteLength (before ++ taken)) rest := by
  have htoken := token?_of_leads hlast hlead hfree
  obtain ⟨c, cs, rfl, -⟩ := hlead.takes.exists_cons hlead.mem_table
  rw [List.cons_append] at htoken ⊢
  rw [run_hit htoken]
  have hstop : (rule.token (byteLength before) (c :: cs)).span.stop =
      byteLength (before ++ c :: cs) := by
    rw [byteLength_append]
    rfl
  have hinside := @run_quiet_append (before ++ [c]) cs rest (byteLength (before ++ c :: cs))
    fun front d back heq => by
      apply token?_of_lt
      have hpos := Char.utf8Size_pos d
      simp only [stateAt, heq, byteLength_append, byteLength_cons, byteLength_nil]
      omega
  rw [hstop, hinside, List.append_assoc, List.singleton_append]

end Precedence

/-! ### Digits at the edges of tokens -/

namespace Rule

/-- What a rule takes ends in a digit exactly if it is a moment or a number. -/
theorem endsInDigit_iff {rule : Rule} (hrule : rule ∈ table) {taken rest : List Char}
    (ht : rule.Takes taken rest) :
    endsInDigit taken = true ↔ rule.kind = .dateTime ∨ rule.kind = .number := by
  obtain ⟨s, hs, hfits, hlen⟩ | ⟨hp, inside, rfl, -⟩ | ⟨hp, hne, hdigits, -⟩ := takes_cases ht
  · have hall : ∀ r ∈ table, ∀ s ∈ r.pattern.alternatives,
        (s.reverse.head? = some .digit ∧ r.kind = .dateTime) ∨
          (s.reverse.head?.any (fun a => !a.agrees .digit) = true ∧
            r.kind ≠ .dateTime ∧ r.kind ≠ .number) := by
      decide
    -- the last slot of the shape tells whether the last character is a digit
    have hrev := Shape.fits_reverse hlen hfits
    obtain rfl | ⟨front, c, rfl⟩ := List.eq_nil_or_concat taken
    · obtain ⟨a, t, rfl, -⟩ := shape_ne_nil hrule hs
      simp at hlen
    · rw [List.concat_eq_append, endsInDigit_concat]
      rw [List.concat_eq_append, List.reverse_append, List.reverse_singleton,
        List.singleton_append] at hrev
      obtain ⟨hdigit, hkind⟩ | ⟨hother, hdate, hnumber⟩ := hall rule hrule s hs
      · cases hslots : s.reverse with
        | nil => simp [hslots] at hdigit
        | cons a t =>
            rw [hslots] at hrev hdigit
            obtain rfl : a = .digit := by simpa using hdigit
            simp only [Shape.fits, Bool.and_eq_true] at hrev
            exact ⟨fun _ => .inl hkind, fun _ => hrev.1⟩
      · cases hslots : s.reverse with
        | nil => simp [hslots] at hother
        | cons a t =>
            rw [hslots] at hrev hother
            simp only [Shape.fits, Bool.and_eq_true] at hrev
            simp only [hdate, hnumber, or_self, iff_false]
            intro hc
            have hagree : a.agrees .digit = true := Slot.agrees_of_fits hrev.1 hc
            simp [hagree] at hother
  · have hkind := (pattern_iff_kind hrule).1.mp hp
    rw [← List.cons_append, endsInDigit_concat, hkind]
    decide
  · have hkind := (pattern_iff_kind hrule).2.1.mp hp
    simp [endsInDigit_of_all hne hdigits, hkind]

/-- A moment begins with four digits and a dash. -/
theorem exists_of_fits_timestamp {s : Shape} (hs : s ∈ Pattern.timestamp.alternatives)
    {cs : List Char} (h : s.fits cs = true) :
    ∃ c₁ c₂ c₃ c₄ c₅ ds, cs = c₁ :: c₂ :: c₃ :: c₄ :: c₅ :: ds ∧
      (∀ c ∈ [c₁, c₂, c₃, c₄], isDecimalDigit c = true) ∧ (Slot.letter '-').fits c₅ = true := by
  obtain ⟨t, rfl⟩ : ∃ t, s = .digit :: .digit :: .digit :: .digit :: .letter '-' :: t := by
    simp only [Pattern.timestamp, Pattern.alternatives, List.mem_singleton] at hs
    exact ⟨_, hs⟩
  obtain ⟨c₁, cs, rfl, h₁, h⟩ := Shape.exists_cons_of_fits h
  obtain ⟨c₂, cs, rfl, h₂, h⟩ := Shape.exists_cons_of_fits h
  obtain ⟨c₃, cs, rfl, h₃, h⟩ := Shape.exists_cons_of_fits h
  obtain ⟨c₄, cs, rfl, h₄, h⟩ := Shape.exists_cons_of_fits h
  obtain ⟨c₅, cs, rfl, h₅, -⟩ := Shape.exists_cons_of_fits h
  refine ⟨c₁, c₂, c₃, c₄, c₅, cs, rfl, ?_, h₅⟩
  simpa using ⟨h₁, h₂, h₃, h₄⟩

/-- Of all rules made of shapes only that of moments may begin with a digit. -/
theorem pattern_of_fits_digit {rule : Rule} (hrule : rule ∈ table) {s : Shape}
    (hs : s ∈ rule.pattern.alternatives) {c : Char} {cs : List Char}
    (hfits : s.fits (c :: cs) = true) (hc : isDecimalDigit c = true) :
    rule.pattern = .timestamp := by
  have hall : ∀ r ∈ table, ∀ s ∈ r.pattern.alternatives, Shape.agree s (.digits 1) = true →
      r.pattern = .timestamp := by
    decide
  have hdigit : Shape.fits (.digits 1) (c :: cs) = true := by
    simpa [Shape.digits, Shape.fits, Slot.fits] using hc
  exact hall rule hrule s hs (Shape.agree_of_fits hfits hdigit)

/-- A digit is no dash. -/
theorem fits_dash_of_digit {c : Char} (hc : isDecimalDigit c = true) :
    (Slot.letter '-').fits c = false := by
  cases hfits : (Slot.letter '-').fits c with
  | false => rfl
  | true =>
      have hagree : (Slot.letter '-').agrees .digit = true := Slot.agrees_of_fits hfits hc
      revert hagree
      decide

/-- In a run of digits that neither a digit nor a dash follows only numbers begin. -/
theorem width?_of_run {rule : Rule} (hrule : rule ∈ table) (hp : rule.pattern ≠ .digitRun)
    {run rest : List Char} (hne : run ≠ []) (hrun : ∀ c ∈ run, isDecimalDigit c = true)
    (hrest : startsWithDigit rest = false)
    (hdash : ∀ c ∈ rest.head?, (Slot.letter '-').fits c = false) :
    rule.pattern.width? (run ++ rest) = none := by
  obtain ⟨c, run, rfl⟩ := List.exists_cons_of_ne_nil hne
  have hc := hrun c (by simp)
  cases htoken : rule.tokenAt? 0 (c :: run ++ rest) with
  | none => exact tokenAt?_eq_none_iff.mp htoken
  | some token =>
      exfalso
      obtain ⟨taken, rest', heq, ht, -⟩ := exists_takes_of_tokenAt? htoken
      obtain ⟨s, hs, hfits, hlen⟩ | ⟨-, inside, rfl, -⟩ | ⟨hdigits, -⟩ := takes_cases ht
      · rw [← Shape.fits_append_left (Nat.le_of_eq hlen) rest', ← heq, List.cons_append] at hfits
        rw [pattern_of_fits_digit hrule hs hfits hc] at hs
        -- the dash of a moment stands inside the run, or at its end, or a digit follows the run
        obtain ⟨c₁, c₂, c₃, c₄, c₅, ds, htext, hdigits, hfifth⟩ := exists_of_fits_timestamp hs hfits
        rcases run with _ | ⟨r₁, _ | ⟨r₂, _ | ⟨r₃, _ | ⟨r₄, run⟩⟩⟩⟩ <;>
          simp only [List.cons_append, List.nil_append, List.cons.injEq] at htext
        · rw [htext.2, startsWithDigit_cons, hdigits c₂ (by simp)] at hrest
          contradiction
        · rw [htext.2.2, startsWithDigit_cons, hdigits c₃ (by simp)] at hrest
          contradiction
        · rw [htext.2.2.2, startsWithDigit_cons, hdigits c₄ (by simp)] at hrest
          contradiction
        · rw [hdash c₅ (by simp [htext.2.2.2.2])] at hfifth
          contradiction
        · rw [← htext.2.2.2.2.1, fits_dash_of_digit (hrun r₄ (by simp))] at hfifth
          contradiction
      · obtain ⟨rfl, -⟩ := List.cons.inj heq
        revert hc
        decide
      · exact hp hdigits

end Rule

/-- A text that falls into tokens and blanks does not begin with a dash. -/
theorem Tiling.fits_dash {position : Nat} {cs : List Char} {tokens : List Token}
    (h : Tiling position cs tokens) : ∀ c ∈ cs.head?, (Slot.letter '-').fits c = false := by
  intro c hhead
  obtain ⟨cs, rfl⟩ : ∃ ds, cs = c :: ds := by
    cases cs with
    | nil => simp at hhead
    | cons d ds =>
        obtain rfl : d = c := by simpa using hhead
        exact ⟨ds, rfl⟩
  cases hfits : (Slot.letter '-').fits c with
  | false => rfl
  | true =>
      -- The tiling begins with a blank or with what a rule takes, and neither can be a dash.
      obtain hblank | ⟨rule, hrule, taken, rest, heq, ht⟩ := h.head
      · have hadmits := Slot.admitsBlank_of_fits hfits hblank
        revert hadmits
        decide
      · obtain ⟨s, hs, hsfits, hlen⟩ | ⟨-, inside, rfl, -⟩ | ⟨-, hne, hdigits, -⟩ :=
          Rule.takes_cases ht
        · have hall : ∀ r ∈ Rule.table, ∀ s ∈ r.pattern.alternatives,
              Shape.agree s (.word "-") = false := by
            decide
          rw [← Shape.fits_append_left (Nat.le_of_eq hlen) rest, ← heq] at hsfits
          have hword : Shape.fits (.word "-") (c :: cs) = true := by
            simpa [Shape.word, Shape.fits] using hfits
          have hagree := Shape.agree_of_fits hsfits hword
          rw [hall rule hrule s hs] at hagree
          contradiction
        · obtain ⟨rfl, -⟩ := List.cons.inj heq
          revert hfits
          decide
        · obtain ⟨d, ds, rfl⟩ := List.exists_cons_of_ne_nil hne
          obtain ⟨rfl, -⟩ := List.cons.inj heq
          rw [Rule.fits_dash_of_digit (hdigits c (by simp))] at hfits
          contradiction

/-! ### Between two tiles -/

/-- The scan stands between two tiles of the text `before ++ rest`, `previous` being the last
token of the tiling before that place. -/
structure Ready (previous : Option Token) (before rest : List Char) (last : Nat) : Prop where
  settled : Settled before
  unquoted : ∀ rule ∈ Rule.table, rule.pattern = .quoted →
    (rule.cursor before rest).free ≤ byteLength before
  last_le : last ≤ byteLength before
  previous_le : ∀ token ∈ previous, token.span.stop ≤ byteLength before
  digit_iff : startsWithDigit rest = true →
    (endsInDigit before = true ↔
      ∃ token ∈ previous, token.kind = .dateTime ∧ token.span.stop = byteLength before)

namespace Ready

/-- In front of a text the scan is ready. -/
theorem nil (rest : List Char) : Ready none [] rest 0 where
  settled := Settled.nil
  unquoted := fun _ _ _ => Nat.le_refl 0
  last_le := Nat.le_refl 0
  previous_le := by simp
  digit_iff := by simp

/-- Behind a blank the scan is ready. -/
theorem blank {previous : Option Token} {before rest : List Char} {c : Char} {last : Nat}
    (h : Ready previous before (c :: rest) last) (hc : isBlank c = true) :
    Ready previous (before ++ [c]) rest last := by
  have hlen : byteLength (before ++ [c]) = byteLength before + c.utf8Size := by simp
  have hpos := Char.utf8Size_pos c
  refine ⟨Settled.blank hc, ?_, ?_, ?_, ?_⟩
  · intro rule hrule hp
    have hquote : c ≠ '\'' := by
      rintro rfl
      revert hc
      decide
    have hfree := h.unquoted rule hrule hp
    rw [Rule.cursor_concat, Cursor.pass_of_width?_eq_none, hlen]
    · omega
    · rw [Rule.rule_cursor]
      exact Rule.width?_eq_none_of_ne_quote hp hquote rest
  · have hlast := h.last_le
    omega
  · intro token htoken
    have hstop := h.previous_le token htoken
    omega
  · intro _
    rw [endsInDigit_concat, isDecimalDigit_of_isBlank hc]
    simp only [Bool.false_eq_true, false_iff, not_exists, not_and]
    intro token htoken _
    have hstop := h.previous_le token htoken
    omega

/-- Behind a token of a rule the scan is ready. -/
theorem token {previous : Option Token} {before taken rest : List Char} {last : Nat}
    (h : Ready previous before (taken ++ rest) last) {rule : Rule} (hrule : rule ∈ Rule.table)
    (ht : rule.Takes taken rest) {last' : Nat} (hlast : last' ≤ byteLength (before ++ taken)) :
    Ready (some (rule.token (byteLength before) taken)) (before ++ taken) rest last' := by
  obtain ⟨c, cs, htaken, -⟩ := ht.exists_cons hrule
  have hne : taken ≠ [] := by simp [htaken]
  have hstop : (rule.token (byteLength before) taken).span.stop = byteLength (before ++ taken) := by
    rw [byteLength_append]
    rfl
  -- What is new is the place of the quoted rule, which stands behind the token in either case, and
  -- whether a number may follow.
  refine ⟨h.settled.takes hrule ht, ?_, hlast, ?_, ?_⟩
  · intro r hr hp
    have hfree := h.unquoted r hr hp
    rw [byteLength_append]
    by_cases hquoted : rule.pattern = .quoted
    · have htr : r.Takes taken rest := by
        rw [Rule.Takes, hp, ← hquoted]
        exact ht
      have hcursor := Rule.cursor_of_takes hfree htr hne
      exact Nat.le_of_eq (congrArg Cursor.free hcursor)
    · have hquotes := ht.ne_quote hrule hquoted
      rw [Rule.cursor_of_none fun d ds hsuffix => ?_]
      · omega
      · exact Rule.width?_eq_none_of_ne_quote hp (hquotes d (hsuffix.subset (by simp))) _
  · simp [hstop]
  · intro hrest
    have hnumber : rule.kind ≠ .number := by
      intro hkind
      have hp := (Rule.pattern_iff_kind hrule).2.1.mpr hkind
      rw [(ht.digits hp).2] at hrest
      contradiction
    rw [endsInDigit_append before hne, Rule.endsInDigit_iff hrule ht]
    simp only [hnumber, or_false, Option.mem_some_iff, exists_eq_left', hstop, and_true]
    rfl

/-- A leading rule whose cursor is not free is that of a number behind a moment. -/
theorem number_of_blocked {previous : Option Token} {before taken rest : List Char} {last : Nat}
    (h : Ready previous before (taken ++ rest) last) {rule : Rule} (hrule : rule ∈ Rule.table)
    (ht : rule.Takes taken rest)
    (hblocked : byteLength before < (rule.cursor before (taken ++ rest)).free) :
    rule.pattern = .digitRun ∧ endsInDigit before = true := by
  obtain hquoted | hnumber := Rule.blocked_cases hrule h.settled ht hblocked
  · have hfree := h.unquoted rule hrule hquoted
    omega
  · exact hnumber

/-- A token is glued to the one before it exactly if it is a number that its cursor misses. -/
theorem isGluedTo_iff {previous : Option Token} {before taken rest : List Char} {last : Nat}
    (h : Ready previous before (taken ++ rest) last) {rule : Rule} (hrule : rule ∈ Rule.table)
    (ht : rule.Takes taken rest) :
    (rule.token (byteLength before) taken).isGluedTo previous = true ↔
      byteLength before < (rule.cursor before (taken ++ rest)).free := by
  have hglued : (rule.token (byteLength before) taken).isGluedTo previous = true ↔
      rule.kind = .number ∧
        ∃ token ∈ previous, token.kind = .dateTime ∧ token.span.stop = byteLength before := by
    simp [Token.isGluedTo, Rule.token, Option.any_eq_true]
  rw [hglued]
  constructor
  · rintro ⟨hkind, hmoment⟩
    have hp := (Rule.pattern_iff_kind hrule).2.1.mpr hkind
    have hdigit := ht.startsWithDigit hrule hp
    rw [Rule.cursor_digitRun hp hdigit]
    exact (h.digit_iff hdigit).mpr hmoment
  · intro hblocked
    obtain ⟨hp, hends⟩ := h.number_of_blocked hrule ht hblocked
    have hdigit := ht.startsWithDigit hrule hp
    exact ⟨(Rule.pattern_iff_kind hrule).2.1.mp hp, (h.digit_iff hdigit).mp hends⟩

end Ready

namespace Precedence

/-- A number behind a digit is passed over. -/
theorem run_glued {before taken rest : List Char} {last : Nat} {rule : Rule}
    (hp : rule.pattern = .digitRun) (ht : rule.Takes taken rest)
    (hdash : ∀ c ∈ rest.head?, (Slot.letter '-').fits c = false)
    (hends : endsInDigit before = true) :
    scanner.run (stateAt before (taken ++ rest) last) (byteLength before) (taken ++ rest) =
      scanner.run (stateAt (before ++ taken) rest last) (byteLength (before ++ taken)) rest := by
  obtain ⟨hdigits, hrest⟩ := ht.digits hp
  apply run_quiet_append
  intro front c back heq
  have hback : ∀ d ∈ c :: back, isDecimalDigit d = true := fun d hd =>
    hdigits d (by rw [heq]; exact List.mem_append_right front hd)
  apply token?_of_none
  intro r hr
  by_cases hrp : r.pattern = .digitRun
  · have hbehind : endsInDigit (before ++ front) = true := by
      cases front with
      | nil => simpa using hends
      | cons d front =>
          rw [endsInDigit_append before (by simp)]
          exact endsInDigit_of_all (by simp) fun e he =>
            hdigits e (by rw [heq]; exact List.mem_append_left _ he)
    have hstart : startsWithDigit (c :: back ++ rest) = true := hback c (by simp)
    have hblocked := (Rule.cursor_digitRun hrp hstart).mpr hbehind
    rw [Cursor.hit?, if_neg (Nat.not_le.mpr hblocked)]
  · exact Rule.hit?_cursor_of_none (Rule.width?_of_run hr hrp (by simp) hback hrest hdash) _ _

/-- The precedence scan of a tiling finds its tokens but for the glued numbers. -/
theorem run_of_tiling {position : Nat} {cs : List Char} {tokens : List Token}
    (h : Tiling position cs tokens) {previous : Option Token} {before : List Char} {last : Nat}
    (hposition : position = byteLength before) (hready : Ready previous before cs last) :
    scanner.run (stateAt before cs last) (byteLength before) cs = withoutGlued previous tokens := by
  induction h generalizing previous before last with
  | nil => rfl
  | @blank position c cs tokens hc _ ih =>
      have hquiet : (stateAt before (c :: cs) last).token? (byteLength before) (c :: cs) = none := by
        apply token?_of_none
        intro rule hrule
        exact Rule.hit?_cursor_of_none (Rule.width?_of_blank hrule hc cs) _ _
      rw [run_quiet hquiet]
      exact ih (by simp [hposition]) (hready.blank hc)
  | @token position rule taken rest tokens hlead htail ih =>
      have hrule := hlead.mem_table
      have ht := hlead.takes
      rw [withoutGlued, hposition]
      by_cases hblocked : byteLength before < (rule.cursor before (taken ++ rest)).free
      · obtain ⟨hp, hends⟩ := hready.number_of_blocked hrule ht hblocked
        rw [if_pos ((hready.isGluedTo_iff hrule ht).mpr hblocked),
          run_glued hp ht htail.fits_dash hends]
        refine ih (by simp [hposition]) (hready.token hrule ht ?_)
        have hlast := hready.last_le
        rw [byteLength_append]
        omega
      · rw [if_neg fun hglued => hblocked ((hready.isGluedTo_iff hrule ht).mp hglued),
          run_leads hready.last_le hlead (Nat.not_lt.mp hblocked)]
        rw [ih (by simp [hposition]) (hready.token hrule ht (Nat.le_refl _))]

end Precedence

/-! ### Both strategies -/

namespace Strategy

/-- What the two strategies make of a text that falls into tokens and blanks. -/
theorem body_of_tiling {cs : List Char} {tokens : List Token} (h : Tiling 0 cs tokens) :
    sequential.body cs = tokens ∧ precedence.body cs = withoutGlued none tokens := by
  constructor
  · exact Sequential.run_of_tiling h (Nat.le_refl 0)
  · exact @Precedence.run_of_tiling 0 cs tokens h none [] 0 rfl (Ready.nil cs)

/-- Without invalid tokens the precedence scan finds the tokens of the sequential one, but for glued
numbers. -/
theorem body_of_valid {cs : List Char}
    (h : ∀ token ∈ sequential.body cs, token.kind ≠ .invalid) :
    precedence.body cs = withoutGlued none (sequential.body cs) :=
  (body_of_tiling (Sequential.tiling_run (Nat.le_refl 0) h)).2

end Strategy

/-- The end of a query is never glued. -/
theorem withoutGlued_concat (previous : Option Token) (tokens : List Token) (position : Nat) :
    withoutGlued previous (tokens ++ [.terminator position]) =
      withoutGlued previous tokens ++ [.terminator position] := by
  induction tokens generalizing previous with
  | nil => rfl
  | cons token tokens ih =>
      simp only [List.cons_append, withoutGlued, ih]
      split <;> rfl

end ErrorQuery
