import ErrorQuery.Proofs.Scan.Agreement
import ErrorQuery.Proofs.Scan.Origin
import ErrorQuery.Proofs.Scan.Shift
import Mathlib.Data.List.Find

/-!
# Quoted texts keep to themselves

No rule but that of quoted texts takes a quote, so what is taken before a quote does not depend on
what stands behind it (`Rule.tokenAt?_before_quote`).  Where a token begins at an opening quote, a
scan has therefore come there in a state that is the same for every quoted text; and behind the
closing quote nothing is left of it.  The tokens of such a text are those in front, that of the
quoted text, and those of the rest as if it stood alone (`Strategy.exists_body_literal`).
-/

set_option autoImplicit false

namespace ErrorQuery

open Text

/-- Texts of the same length in front tell what stands behind them. -/
theorem Text.append_inj_of_byteLength {cs ds cs' ds' : List Char} (h : cs ++ ds = cs' ++ ds')
    (hlen : byteLength cs = byteLength cs') : cs = cs' ∧ ds = ds' := by
  have hcs : cs = cs' := by
    calc
      cs = takeBytes (byteLength cs) (cs ++ ds) := (takeBytes_append cs ds).symm
      _ = takeBytes (byteLength cs') (cs' ++ ds') := by rw [h, hlen]
      _ = cs' := takeBytes_append cs' ds'
  exact ⟨hcs, List.append_cancel_left (hcs ▸ h)⟩

/-! ### Before a quote -/

/-- The characters up to one that ends them do not depend on what stands behind it. -/
theorem takeWhile_before {p : Char → Bool} {c : Char} (hc : p c = false) (cs ds : List Char) :
    (cs ++ c :: ds).takeWhile p = cs.takeWhile p := by
  induction cs with
  | nil => simp [hc]
  | cons d cs ih =>
      rw [List.cons_append, List.takeWhile_cons, List.takeWhile_cons, ih]

/-- Searches that agree on every member find the same. -/
theorem findSome?_congr {α β : Type} {f g : α → Option β} {l : List α}
    (h : ∀ a ∈ l, f a = g a) : l.findSome? f = l.findSome? g := by
  induction l with
  | nil => rfl
  | cons a l ih =>
      rw [List.findSome?_cons, List.findSome?_cons, h a (by simp),
        ih fun b hb => h b (List.mem_cons_of_mem a hb)]

namespace Rule

/-- What a rule takes before a quote does not depend on what stands behind the quote. -/
theorem width?_before_quote {rule : Rule} (hrule : rule ∈ table) {back : List Char}
    (hback : back ≠ []) (rest : List Char) :
    rule.pattern.width? (back ++ '\'' :: rest) = rule.pattern.width? (back ++ ['\'']) := by
  cases hp : rule.pattern with
  | shapes alternatives =>
      have hfind : alternatives.find? (fun s => s.fits (back ++ '\'' :: rest)) =
          alternatives.find? (fun s => s.fits (back ++ ['\''])) := by
        apply List.find?_congr
        intro s hs
        have hmem : s ∈ rule.pattern.alternatives := by
          rw [hp]
          exact hs
        exact Shape.fits_before_congr (fun a ha => slot_fits_quote hrule hmem ha) back rest []
      simp only [Pattern.width?, hfind]
  | quoted =>
      obtain ⟨c, back, rfl⟩ := List.exists_cons_of_ne_nil hback
      by_cases hc : c = '\''
      · have hquote : Pattern.isUnquoted '\'' = false := by decide
        have hle := (List.takeWhile_sublist Pattern.isUnquoted (l := back)).length_le
        have hlt (ds : List Char) : (back.takeWhile Pattern.isUnquoted).length <
            (back ++ '\'' :: ds).length := by
          rw [List.length_append, List.length_cons]
          omega
        rw [hc, List.cons_append, List.cons_append]
        simp only [Pattern.width?, takeWhile_before hquote]
        rw [if_pos (hlt rest), if_pos (hlt [])]
      · rw [← hp, List.cons_append, List.cons_append, width?_eq_none_of_ne_quote hp hc,
          width?_eq_none_of_ne_quote hp hc]
  | digitRun =>
      have hquote : isDecimalDigit '\'' = false := by decide
      simp only [Pattern.width?, takeWhile_before hquote]

/-- What a rule takes before a quote does not depend on what the quote begins. -/
theorem tokenAt?_before_quote {rule : Rule} (hrule : rule ∈ table) {back : List Char}
    (hback : back ≠ []) (position : Nat) (rest rest' : List Char) :
    rule.tokenAt? position (back ++ '\'' :: rest) =
      rule.tokenAt? position (back ++ '\'' :: rest') := by
  unfold tokenAt?
  rw [width?_before_quote hrule hback rest, width?_before_quote hrule hback rest']
  cases hwidth : rule.pattern.width? (back ++ ['\'']) with
  | none => rfl
  | some w =>
      have htake (ds : List Char) : (back ++ '\'' :: ds).take w = (back ++ ['\'']).take w := by
        rw [List.append_cons, List.take_append_of_le_length (Pattern.width?_le hwidth)]
      simp only [Option.map_some, htake]

/-- At a quote no rule takes anything but that of quoted texts. -/
theorem width?_of_quote {rule : Rule} (hrule : rule ∈ table) (hp : rule.pattern ≠ .quoted)
    (cs : List Char) : rule.pattern.width? ('\'' :: cs) = none := by
  cases htoken : rule.tokenAt? 0 ('\'' :: cs) with
  | none => exact tokenAt?_eq_none_iff.mp htoken
  | some token =>
      obtain ⟨taken, rest, heq, ht, -⟩ := exists_takes_of_tokenAt? htoken
      obtain ⟨c, taken, rfl, -⟩ := ht.exists_cons hrule
      obtain ⟨rfl, -⟩ := List.cons.inj heq
      exact absurd rfl (ht.ne_quote hrule hp '\'' (by simp))

/-- The rule of quoted texts. -/
def quotedText : Rule :=
  ⟨.text, .quoted, 1⟩

/-- There is one rule of quoted texts. -/
theorem eq_quotedText {rule : Rule} (hrule : rule ∈ table) (hp : rule.pattern = .quoted) :
    rule = quotedText := by
  revert rule
  decide

/-- Behind an opening quote a quoted text is taken. -/
theorem leads_quotedText {inside : List Char} (h : ∀ c ∈ inside, c ≠ '\'') (rest : List Char) :
    quotedText.Leads ('\'' :: (inside ++ ['\''])) rest := by
  have htable : table = table.take 19 ++ quotedText :: table.drop 20 := by decide
  refine ⟨table.take 19, table.drop 20, htable, ?_, ?_⟩
  · have hwidth := Pattern.width?_quoted h rest
    simpa [Takes, quotedText] using hwidth
  · intro r hr
    have hother : ∀ r ∈ table.take 19, r.pattern ≠ .quoted := by decide
    exact width?_of_quote (List.mem_of_mem_take hr) (hother r hr) _

end Rule

/-- The token of a quoted text. -/
def Token.literal (position : Nat) (inside : List Char) : Token :=
  ⟨.text, String.ofList inside, ⟨position, position + (byteLength inside + 2)⟩⟩

/-- The quotes take two bytes. -/
theorem byteLength_quoted (inside : List Char) :
    byteLength ('\'' :: (inside ++ ['\''])) = byteLength inside + 2 := by
  have hsize : '\''.utf8Size = 1 := by decide
  simp only [byteLength_cons, byteLength_append, byteLength_nil, hsize]
  omega

/-- The token of a quoted text is its literal. -/
theorem Rule.token_quotedText (position : Nat) (inside : List Char) :
    quotedText.token position ('\'' :: (inside ++ ['\''])) = .literal position inside := by
  simp only [token, quotedText, Pattern.value, Token.literal, List.drop_one, List.tail_cons,
    List.dropLast_concat, byteLength_quoted]

/-! ### The place of a token -/

namespace Scanner

variable {σ : Type} {s : Scanner σ}

/-- No token begins before the place where the scan does. -/
theorem le_start_of_mem_run
    (hstart : ∀ {state position cs token}, s.token? state position cs = some token →
      token.span.start = position)
    {state : σ} {position : Nat} {cs : List Char} {token : Token}
    (h : token ∈ s.run state position cs) : position ≤ token.span.start := by
  induction cs generalizing state position with
  | nil => simp at h
  | cons c cs ih =>
      rw [run, List.mem_append, Option.mem_toList] at h
      rcases h with h | h
      · exact Nat.le_of_eq (hstart h).symm
      · have hlater := ih h
        omega

/-- A token is made where it begins. -/
theorem token?_of_mem_run
    (hstart : ∀ {state position cs token}, s.token? state position cs = some token →
      token.span.start = position)
    {state : σ} {position : Nat} {before rest : List Char} {c : Char} {token : Token}
    (h : token ∈ s.run state position (before ++ c :: rest))
    (hbegin : token.span.start = position + byteLength before) :
    s.token? (s.after state position before (c :: rest)) (position + byteLength before)
      (c :: rest) = some token := by
  induction before generalizing state position with
  | nil =>
      rw [List.nil_append, run, List.mem_append, Option.mem_toList] at h
      rcases h with h | h
      · exact h
      · have hlater := le_start_of_mem_run hstart h
        have hpos := Char.utf8Size_pos c
        rw [hbegin, byteLength_nil] at hlater
        omega
  | cons d before ih =>
      have hpos := Char.utf8Size_pos d
      rw [byteLength_cons] at hbegin ⊢
      rw [List.cons_append, run, List.mem_append, Option.mem_toList] at h
      rcases h with h | h
      · have hhere := hstart h
        omega
      · rw [after, ← Nat.add_assoc]
        exact ih h (by omega)

end Scanner

/-! ### The sequential scan -/

namespace Sequential

/-- A token of the sequential scan begins where it is looked for. -/
theorem span_tokenAt (position : Nat) (cs : List Char) :
    (tokenAt position cs).span.start = position ∧ position ≤ (tokenAt position cs).span.stop := by
  unfold tokenAt
  cases htoken : ruleToken? position cs with
  | none => exact ⟨rfl, Nat.le_add_right _ _⟩
  | some token =>
      obtain ⟨rule, taken, rest, -, -, rfl⟩ := exists_leads_of_ruleToken? htoken
      exact ⟨rfl, Nat.le_add_right _ _⟩

/-- A token of the sequential scan begins at the place of the step. -/
theorem start_of_token? {free position : Nat} {cs : List Char} {token : Token}
    (h : scanner.token? free position cs = some token) : token.span.start = position := by
  simp only [scanner, Option.ite_none_left_eq_some, Option.some.injEq] at h
  rw [← h.2]
  exact (span_tokenAt position cs).1

/-- The place from which the sequential scan is free does not go back. -/
theorem le_after (free position : Nat) (before rest : List Char) :
    free ≤ scanner.after free position before rest := by
  induction before generalizing free position with
  | nil => exact Nat.le_refl free
  | cons c before ih =>
      have hstop := (span_tokenAt position (c :: (before ++ rest))).2
      have hnext : free ≤ scanner.next free position (c :: (before ++ rest)) := by
        simp only [scanner]
        split
        · exact Nat.le_refl free
        · omega
      exact Nat.le_trans hnext (ih _ _)

/-- A token that ends before a quote does not depend on what the quote begins. -/
theorem tokenAt_before_quote {position : Nat} {back rest : List Char} (hback : back ≠ [])
    (hstop : (tokenAt position (back ++ '\'' :: rest)).span.stop ≤ position + byteLength back)
    (rest' : List Char) :
    tokenAt position (back ++ '\'' :: rest') = tokenAt position (back ++ '\'' :: rest) := by
  have hrule : ruleToken? position (back ++ '\'' :: rest') =
      ruleToken? position (back ++ '\'' :: rest) := by
    unfold ruleToken?
    exact findSome?_congr fun rule hmem =>
      Rule.tokenAt?_before_quote hmem hback position rest' rest
  unfold tokenAt at hstop ⊢
  rw [hrule]
  cases htoken : ruleToken? position (back ++ '\'' :: rest) with
  | some token => rfl
  | none =>
      -- an invalid token ends at a blank, which stands before the quote
      rw [htoken] at hstop
      have hquote : isSolid '\'' = true := by decide
      have hlt : (back.takeWhile isSolid).length ≠ back.length := by
        intro hlen
        have hrun : (invalidToken position (back ++ '\'' :: rest)).span.stop ≤
            position + byteLength back := hstop
        simp only [invalidToken, List.takeWhile_append, hlen, if_true, List.takeWhile_cons,
          hquote, byteLength_append, byteLength_cons] at hrun
        have hpos := Char.utf8Size_pos '\''
        omega
      have htake (ds : List Char) :
          (back ++ '\'' :: ds).takeWhile isSolid = back.takeWhile isSolid := by
        rw [List.takeWhile_append, if_neg hlt]
      simp only [Option.getD_none, invalidToken, htake]

/-- A scan that comes to a quote between two tokens does not depend on what stands behind it. -/
theorem walk_before_quote {free position : Nat} {before rest : List Char}
    (h : scanner.after free position before ('\'' :: rest) ≤ position + byteLength before)
    (rest' : List Char) :
    scanner.front free position before ('\'' :: rest') =
        scanner.front free position before ('\'' :: rest) ∧
      scanner.after free position before ('\'' :: rest') =
        scanner.after free position before ('\'' :: rest) := by
  induction before generalizing free position with
  | nil => exact ⟨rfl, rfl⟩
  | cons c before ih =>
      have hsame : scanner.token? free position (c :: (before ++ '\'' :: rest')) =
            scanner.token? free position (c :: (before ++ '\'' :: rest)) ∧
          scanner.next free position (c :: (before ++ '\'' :: rest')) =
            scanner.next free position (c :: (before ++ '\'' :: rest)) := by
        by_cases hquiet : position < free ∨ isBlank c = true
        · simp [scanner, hquiet]
        · -- A token that begins here ends before the quote, for the scan is free again at it; so
          -- it is the same token whatever stands behind.
          have hle := le_after (scanner.next free position (c :: (before ++ '\'' :: rest)))
            (position + c.utf8Size) before ('\'' :: rest)
          have hnext : scanner.next free position (c :: (before ++ '\'' :: rest)) =
              (tokenAt position (c :: before ++ '\'' :: rest)).span.stop := by
            simp [scanner, hquiet]
          have hstop : (tokenAt position (c :: before ++ '\'' :: rest)).span.stop ≤
              position + byteLength (c :: before) := by
            rw [← hnext]
            exact Nat.le_trans hle h
          have htoken := tokenAt_before_quote (by simp) hstop rest'
          rw [List.cons_append, List.cons_append] at htoken
          simp [scanner, hquiet, htoken]
      rw [Scanner.after, byteLength_cons, ← Nat.add_assoc] at h
      have hlater := ih h
      simp only [Scanner.front, Scanner.after, hsame.1, hsame.2]
      exact ⟨by rw [hlater.1], hlater.2⟩

/-- Where a token begins at a quote, the text falls apart around what is quoted. -/
theorem exists_run_literal {before rest : List Char} {token : Token}
    (h : token ∈ scanner.run 0 0 (before ++ '\'' :: rest))
    (hstart : token.span.start = byteLength before) :
    ∃ front, ∀ inside rest, (∀ c ∈ inside, c ≠ '\'') →
      scanner.run 0 0 (before ++ '\'' :: (inside ++ '\'' :: rest)) =
        front ++ .literal (byteLength before) inside ::
          (scanner.run 0 0 rest).map (.shift (byteLength before + (byteLength inside + 2))) := by
  have htoken := Scanner.token?_of_mem_run start_of_token? h (by omega)
  have hfree : scanner.after 0 0 before ('\'' :: rest) ≤ 0 + byteLength before := by
    simp only [scanner, Option.ite_none_left_eq_some, not_or] at htoken
    exact Nat.not_lt.mp htoken.1.1
  refine ⟨scanner.front 0 0 before ('\'' :: rest), fun inside rest' hinside => ?_⟩
  obtain ⟨hfront, hafter⟩ := walk_before_quote hfree (inside ++ '\'' :: rest')
  have hlead := Rule.leads_quotedText hinside rest'
  have hrun := run_leads hlead hfree
  rw [Nat.zero_add, Rule.token_quotedText, byteLength_quoted,
    run_eq_map_shift (Nat.le_refl _)] at hrun
  rw [Scanner.run_append, hfront, hafter, Nat.zero_add, ← hrun]
  simp

end Sequential

/-! ### The precedence scan -/

/-- Behind a quoted text every cursor is free. -/
theorem Rule.free_behind_quoted {rule : Rule} (hrule : rule ∈ table) {before inside rest : List Char}
    (hfree : rule.pattern = .quoted →
      (rule.cursor before ('\'' :: (inside ++ ['\'']) ++ rest)).free ≤ byteLength before)
    (hinside : ∀ c ∈ inside, c ≠ '\'') :
    (rule.cursor (before ++ '\'' :: (inside ++ ['\''])) rest).free ≤
      byteLength (before ++ '\'' :: (inside ++ ['\''])) := by
  by_cases hp : rule.pattern = .quoted
  · have ht : rule.Takes ('\'' :: (inside ++ ['\''])) rest := by
      have htakes := (leads_quotedText hinside rest).takes
      unfold Takes at htakes ⊢
      rw [hp]
      exact htakes
    have hcursor := cursor_of_takes (hfree hp) ht (by simp)
    rw [byteLength_append]
    exact Nat.le_of_eq (congrArg Cursor.free hcursor)
  · obtain hle | ⟨earlier, front, back, rest', hsplit, -, hfront, -, ht, -⟩ :=
      cursor_cases rule (before ++ '\'' :: (inside ++ ['\''])) rest
    · exact hle
    · -- what reaches past the closing quote would contain it
      have hlast : front.getLast? = some '\'' := by
        have hends : (earlier ++ front).getLast? = some '\'' := by
          rw [← hsplit, ← List.cons_append, ← List.append_assoc, List.getLast?_concat]
        rwa [List.getLast?_append_of_ne_nil _ hfront] at hends
      have hmem : '\'' ∈ front ++ back :=
        List.mem_append_left back (List.mem_of_getLast? hlast)
      exact absurd rfl (ht.ne_quote hrule hp '\'' hmem)

namespace Precedence

/-- A token of the precedence scan begins at the place of the step. -/
theorem start_of_token? {state : State} {position : Nat} {cs : List Char} {token : Token}
    (h : scanner.token? state position cs = some token) : token.span.start = position := by
  simp only [scanner, State.token?, Option.ite_none_left_eq_some] at h
  obtain ⟨cursor, -, hit⟩ := List.exists_of_findSome?_eq_some h.2
  exact start_of_hit? hit

/-- Along a text the cursors are those of the table. -/
theorem cursors_after (before rest : List Char) :
    (scanner.after initial 0 before rest).cursors = Rule.table.map (·.cursor before rest) := by
  induction before using List.reverseRecOn generalizing rest with
  | nil => rfl
  | append_singleton before c ih =>
      rw [Scanner.after_concat, Nat.zero_add]
      simp only [scanner] at ih ⊢
      rw [ih, List.map_map]
      exact List.map_congr_left fun rule _ => (Rule.cursor_concat rule before c rest).symm

/-- The cursors of the table look for its rules. -/
theorem map_rule_cursor (before rest : List Char) :
    (Rule.table.map (·.cursor before rest)).map (·.rule) = Rule.table := by
  have hrule : (fun cursor : Cursor => cursor.rule) ∘ (fun rule : Rule => rule.cursor before rest) =
      id := by
    funext rule
    exact Rule.rule_cursor rule before rest
  rw [List.map_map, hrule, List.map_id]

/-- Where every rule is free and the last token has ended, the scan begins afresh. -/
theorem run_fresh {before rest : List Char} {last : Nat}
    (hfree : ∀ rule ∈ Rule.table, (rule.cursor before rest).free ≤ byteLength before)
    (hlast : last ≤ byteLength before) :
    scanner.run (stateAt before rest last) (byteLength before) rest =
      (scanner.run initial 0 rest).map (Token.shift (byteLength before)) := by
  apply run_eq_map_shift
  · exact map_rule_cursor before rest
  · intro cursor hcursor
    obtain ⟨rule, hrule, rfl⟩ := List.mem_map.mp hcursor
    exact hfree rule hrule
  · exact hlast

/-- A step depends on what the rules take only. -/
theorem step_congr {state : State} (hstate : state.OverTable) {position : Nat} {cs ds : List Char}
    (h : ∀ rule ∈ Rule.table, rule.tokenAt? position cs = rule.tokenAt? position ds) :
    scanner.token? state position cs = scanner.token? state position ds ∧
      scanner.next state position cs = scanner.next state position ds := by
  have hhit : ∀ cursor ∈ state.cursors, cursor.hit? position cs = cursor.hit? position ds := by
    intro cursor hcursor
    unfold Cursor.hit?
    rw [h cursor.rule (hstate cursor hcursor)]
  have htoken : state.token? position cs = state.token? position ds := by
    unfold State.token?
    rw [findSome?_congr hhit]
  have hpass : state.cursors.map (·.pass position cs) = state.cursors.map (·.pass position ds) := by
    apply List.map_congr_left
    intro cursor hcursor
    unfold Cursor.pass
    rw [hhit cursor hcursor]
  refine ⟨htoken, ?_⟩
  simp only [scanner, htoken, hpass]

/-- A step before a quote does not depend on what the quote begins. -/
theorem step_before_quote {state : State} (hstate : state.OverTable) (position : Nat)
    {back : List Char} (hback : back ≠ []) (rest rest' : List Char) :
    scanner.token? state position (back ++ '\'' :: rest') =
        scanner.token? state position (back ++ '\'' :: rest) ∧
      scanner.next state position (back ++ '\'' :: rest') =
        scanner.next state position (back ++ '\'' :: rest) :=
  step_congr hstate fun _ hrule => Rule.tokenAt?_before_quote hrule hback position rest' rest

/-- The walk up to a quote does not depend on what the quote begins. -/
theorem walk_before_quote {state : State} (hstate : state.OverTable) (position : Nat)
    (before rest rest' : List Char) :
    scanner.front state position before ('\'' :: rest') =
        scanner.front state position before ('\'' :: rest) ∧
      scanner.after state position before ('\'' :: rest') =
        scanner.after state position before ('\'' :: rest) := by
  induction before generalizing state position with
  | nil => exact ⟨rfl, rfl⟩
  | cons c before ih =>
      obtain ⟨htoken, hnext⟩ := step_before_quote hstate position (List.cons_ne_nil c before)
        rest rest'
      rw [List.cons_append, List.cons_append] at htoken hnext
      obtain ⟨hfront, hafter⟩ := ih (hstate.next position (c :: (before ++ '\'' :: rest)))
        (position + c.utf8Size)
      simp only [Scanner.front, Scanner.after, htoken, hnext]
      exact ⟨by rw [hfront], hafter⟩

/-- Where a token begins at a quote, the text falls apart around what is quoted. -/
theorem exists_run_literal {before rest : List Char} {token : Token}
    (h : token ∈ scanner.run initial 0 (before ++ '\'' :: rest))
    (hstart : token.span.start = byteLength before) :
    ∃ front, ∀ inside rest, (∀ c ∈ inside, c ≠ '\'') →
      scanner.run initial 0 (before ++ '\'' :: (inside ++ '\'' :: rest)) =
        front ++ .literal (byteLength before) inside ::
          (scanner.run initial 0 rest).map
            (.shift (byteLength before + (byteLength inside + 2))) := by
  have htoken := Scanner.token?_of_mem_run start_of_token? h (by omega)
  refine ⟨scanner.front initial 0 before ('\'' :: rest), fun inside rest' hinside => ?_⟩
  obtain ⟨hfront, hafter⟩ :=
    walk_before_quote overTable_initial 0 before rest (inside ++ '\'' :: rest')
  have hcursors := cursors_after before ('\'' :: (inside ++ '\'' :: rest'))
  rw [Scanner.run_append, hfront, hafter, Nat.zero_add]
  rw [hafter] at hcursors
  generalize scanner.after initial 0 before ('\'' :: rest) = state at htoken hcursors ⊢
  simp only [scanner, State.token?, Option.ite_none_left_eq_some, Nat.zero_add] at htoken
  obtain ⟨hlast, hfind⟩ := htoken
  have hsplit : '\'' :: (inside ++ '\'' :: rest') = '\'' :: (inside ++ ['\'']) ++ rest' := by simp
  -- only the cursor of quoted texts meets a token at a quote, so it is free there
  have hfree : ∀ rule ∈ Rule.table, rule.pattern = .quoted →
      (rule.cursor before ('\'' :: (inside ++ ['\'']) ++ rest')).free ≤ byteLength before := by
    intro rule hrule hp
    obtain ⟨cursor, hcursor, hit⟩ := List.exists_of_findSome?_eq_some hfind
    rw [Cursor.hit?, Option.ite_none_right_eq_some] at hit
    rw [hcursors, List.mem_map] at hcursor
    obtain ⟨r, hr, rfl⟩ := hcursor
    rw [Rule.rule_cursor] at hit
    have hquoted : r.pattern = .quoted := by
      by_contra hother
      rw [Rule.tokenAt?_eq_none_iff.mpr (Rule.width?_of_quote hr hother rest)] at hit
      exact absurd hit.2 (by simp)
    rw [Rule.eq_quotedText hrule hp, ← Rule.eq_quotedText hr hquoted, ← hsplit]
    exact hit.1
  have hstate : state = stateAt before ('\'' :: (inside ++ ['\'']) ++ rest') state.last := by
    rw [stateAt, ← hsplit, ← hcursors]
  have hlead := Rule.leads_quotedText hinside rest'
  have hrun := run_leads (Nat.not_lt.mp hlast) hlead (hfree _ hlead.mem_table rfl)
  have hfresh := run_fresh (fun rule hrule =>
    Rule.free_behind_quoted hrule (hfree rule hrule) hinside) (Nat.le_refl _)
  rw [← hstate, Rule.token_quotedText, hfresh, byteLength_append, byteLength_quoted] at hrun
  rw [hsplit, hrun]

end Precedence

/-! ### Both strategies -/

namespace Strategy

/-- A token at a quote splits the text around what is quoted, whatever that is. -/
theorem exists_body_literal {strategy : Strategy} {before rest : List Char} {token : Token}
    (h : token ∈ strategy.body (before ++ '\'' :: rest))
    (hstart : token.span.start = byteLength before) :
    ∃ front, ∀ inside rest, (∀ c ∈ inside, c ≠ '\'') →
      strategy.body (before ++ '\'' :: (inside ++ '\'' :: rest)) =
        front ++ .literal (byteLength before) inside ::
          (strategy.body rest).map (.shift (byteLength before + (byteLength inside + 2))) := by
  cases strategy with
  | sequential => exact Sequential.exists_run_literal h hstart
  | precedence => exact Precedence.exists_run_literal h hstart

/-- A text token that spans a quoted part is made of it, so that part holds no further quote. -/
theorem ne_quote_of_mem_body {strategy : Strategy} {before inside rest : List Char}
    {token : Token} (h : token ∈ strategy.body (before ++ '\'' :: (inside ++ '\'' :: rest)))
    (hkind : token.kind = .text)
    (hspan : token.span = ⟨byteLength before, byteLength before + (byteLength inside + 2)⟩) :
    ∀ c ∈ inside, c ≠ '\'' := by
  obtain ⟨rule, hrule, before', taken, rest', htext, ht, rfl⟩ :=
    fromRule_of_mem_body h (by rw [hkind]; decide)
  have hstart : byteLength before' = byteLength before := congrArg Span.start hspan
  have hstop : byteLength before' + byteLength taken =
      byteLength before + (byteLength inside + 2) := congrArg Span.stop hspan
  obtain ⟨rfl, htail⟩ := append_inj_of_byteLength htext hstart.symm
  obtain ⟨inner, rfl, hinner⟩ := ht.quoted ((Rule.pattern_iff_kind hrule).1.mpr hkind)
  rw [byteLength_quoted] at hstop
  have hinside : inside ++ '\'' :: rest = inner ++ '\'' :: rest' := by simpa using htail
  obtain ⟨rfl, -⟩ := append_inj_of_byteLength hinside (by omega)
  exact hinner

end Strategy

end ErrorQuery
