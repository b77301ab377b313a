import ErrorQuery.Proofs.Scan.Selection

/-!
# What the precedence scan drops matches no rule

A rule that takes something at a place which no token covers must have missed it: its cursor stands
inside an earlier token of the same rule, which does not count.  A rule made of shapes overlaps
itself only at a seam (`seams`), and there another rule finds a token that covers the place
(`Precedence.covered_of_atSeam`).  A quoted text that does not count lies inside one that does.  So
the rule is that of numbers, and its token has begun inside a moment whose last digits go on behind
it (`dropped_text_matches_no_rule`).
-/

set_option autoImplicit false

namespace ErrorQuery

open Text

/-! ### Seams -/

/-- A seam does not depend on what stands further in front. -/
theorem AtSeam.append_left {seam : Shape × Slot} {before rest : List Char}
    (h : AtSeam seam before rest) (earlier : List Char) : AtSeam seam (earlier ++ before) rest := by
  refine ⟨h.mem_seams, ?_, h.back⟩
  rw [List.reverse_append, Shape.fits_append_left (Shape.length_le_of_fits h.front)]
  exact h.front

namespace Rule

/-- Nothing that a rule takes ends at a seam. -/
theorem Takes.not_atSeam {rule : Rule} (hrule : rule ∈ table) {taken rest : List Char}
    (ht : rule.Takes taken rest) (seam : Shape × Slot) (before : List Char) :
    ¬ AtSeam seam (before ++ taken) rest := by
  intro h
  have hfront := h.front
  obtain ⟨s, hs, hfits, hlen⟩ | ⟨-, inside, rfl, -⟩ | ⟨-, hne, hdigits, hrest⟩ := takes_cases ht
  · have hrev : Shape.fits s.reverse (before ++ taken).reverse = true := by
      rw [List.reverse_append, Shape.fits_append_left (by simp [hlen])]
      exact Shape.fits_reverse hlen hfits
    have hagree := Shape.agree_of_fits hrev hfront
    rw [agree_reverse_unsettled hrule hs h.mem_unsettledEnds] at hagree
    contradiction
  · have hall : ∀ seam ∈ seams, Shape.agree seam.1.reverse (.word "'") = false := by decide
    have hquote : Shape.fits (.word "'") (before ++ '\'' :: (inside ++ ['\''])).reverse = true := by
      simp [Shape.word, Shape.fits, Slot.fits, sameLetter]
    have hagree := Shape.agree_of_fits hfront hquote
    rw [hall seam h.mem_seams] at hagree
    contradiction
  · -- a digit in front of a seam is followed by another one
    have hall : ∀ seam ∈ seams, Shape.agree seam.1.reverse (.digits 1) = true →
        seam.2 = .digit := by
      decide
    have hlast : Shape.fits (.digits 1) (before ++ taken).reverse = true := by
      obtain ⟨cs, c, rfl⟩ := List.eq_nil_or_concat taken |>.resolve_left hne
      have hc := hdigits c (by simp)
      simpa [Shape.digits, Shape.fits, Slot.fits] using hc
    have hback := h.back
    rw [hall seam h.mem_seams (Shape.agree_of_fits hfront hlast)] at hback
    obtain ⟨c, cs, rfl, hc, -⟩ := Shape.exists_cons_of_fits hback
    have hdigit : isDecimalDigit c = true := hc
    rw [startsWithDigit_cons, hdigit] at hrest
    contradiction

/-! ### Tokens and what they take -/

/-- What the search for a rule finds is what the rule takes at a place where it is free. -/
theorem exists_takes_of_mem_findAll {rule : Rule} {cs : List Char} {token : Token}
    (h : token ∈ rule.findAll cs) :
    ∃ before taken rest, cs = before ++ (taken ++ rest) ∧ rule.Takes taken rest ∧
      (rule.cursor before (taken ++ rest)).free ≤ byteLength before ∧
      token = rule.token (byteLength before) taken := by
  obtain ⟨before, rest, rfl, -, hit⟩ := mem_findAll_iff.mp h
  obtain ⟨hfree, taken, rest, rfl, ht, rfl⟩ := Cursor.exists_takes_of_hit? hit
  rw [rule_cursor] at ht ⊢
  exact ⟨before, taken, rest, rfl, ht, hfree, rfl⟩

/-- What a rule of the table takes where its cursor is free is one of its tokens. -/
theorem mem_findAll_of_takes {rule : Rule} (hrule : rule ∈ table) {before taken rest : List Char}
    (ht : rule.Takes taken rest)
    (hfree : (rule.cursor before (taken ++ rest)).free ≤ byteLength before) :
    rule.token (byteLength before) taken ∈ rule.findAll (before ++ (taken ++ rest)) := by
  obtain ⟨c, cs, htaken, -⟩ := ht.exists_cons hrule
  refine mem_findAll_iff.mpr ⟨before, taken ++ rest, rfl, by simp [htaken], ?_⟩
  rw [Cursor.hit?, if_pos hfree, rule_cursor, tokenAt?_of_takes ht]

/-- A rule whose cursor is not free has found a token that begins before the place and ends behind
it. -/
theorem exists_found_of_blocked {rule : Rule} {before rest : List Char}
    (h : byteLength before < (rule.cursor before rest).free) :
    ∃ earlier front back rest', before = earlier ++ front ∧ rest = back ++ rest' ∧ front ≠ [] ∧
      back ≠ [] ∧ rule.Takes (front ++ back) rest' ∧
      rule.token (byteLength earlier) (front ++ back) ∈ rule.findAll (before ++ rest) ∧
      (rule.cursor earlier (front ++ back ++ rest')).free ≤ byteLength earlier := by
  obtain ⟨found, hfound, hinside⟩ := (lt_free_iff rule before rest).mp h
  obtain ⟨earlier, taken, rest', hsplit, ht, hfree, rfl⟩ := exists_takes_of_mem_findAll hfound
  obtain ⟨hlow, hhigh⟩ : byteLength earlier < byteLength before ∧
      byteLength before < byteLength earlier + byteLength taken := hinside
  obtain ⟨front, back, rfl, rfl, hrest, hback⟩ :=
    exists_parts_of_byteLength_lt hsplit.symm (Nat.le_of_lt hlow) hhigh
  refine ⟨earlier, front, back, rest', rfl, hrest, ?_, hback, ht, hfound, hfree⟩
  rintro rfl
  simp at hlow

end Rule

/-- The place lies among digits that begin at the byte `start` and follow each other. -/
def Text.InDigitRun (cs : List Char) (start n : Nat) : Prop :=
  ∃ before run after, cs = before ++ (run ++ after) ∧ byteLength before = start ∧
    (∀ c ∈ run, isDecimalDigit c = true) ∧ start ≤ n ∧ n < start + byteLength run

/-! ### Covered places -/

namespace Precedence

/-- A token of the scan covers the place behind `before`. -/
def IsCovered (before rest : List Char) : Prop :=
  ∃ token ∈ Strategy.precedence.body (before ++ rest), token.span.Contains (byteLength before)

/-- Where a rule finds something, a token covers the place: the best-ranked one begins there, or an
earlier one reaches past. -/
theorem covered_of_free {rule : Rule} (hrule : rule ∈ Rule.table) {before taken rest : List Char}
    (ht : rule.Takes taken rest)
    (hfree : (rule.cursor before (taken ++ rest)).free ≤ byteLength before) :
    IsCovered before (taken ++ rest) := by
  have hfound := Rule.mem_findAll_of_takes hrule ht hfree
  by_cases hopen : IsOpen before (taken ++ rest)
  · obtain ⟨token, htoken, hstart⟩ :=
      exists_start_iff.mpr ⟨⟨rule, hrule, _, hfound, rfl⟩, hopen⟩
    have hstart : token.span.start = byteLength before := hstart
    have hlt := (origin_of_mem_run htoken).start_lt_stop
    exact ⟨token, htoken, Nat.le_of_eq hstart, by omega⟩
  · unfold IsOpen at hopen
    push Not at hopen
    obtain ⟨token, htoken, hlow, hhigh⟩ := hopen
    exact ⟨token, htoken, Nat.le_of_lt hlow, hhigh⟩

/-- A token that covers the character in front of a seam reaches past the seam. -/
theorem covered_behind {seam : Shape × Slot} {before rest : List Char} {c : Char}
    (hseam : AtSeam seam (before ++ [c]) rest) (h : IsCovered before (c :: rest)) :
    IsCovered (before ++ [c]) rest := by
  obtain ⟨token, htoken, hlow, hhigh⟩ := h
  have horigin : token.FromRule (before ++ c :: rest) := origin_of_mem_run htoken
  have hreach := horigin.standsIn.stop_of_contains hhigh
  have hlength : byteLength (before ++ [c]) = byteLength before + c.utf8Size := by simp
  rw [List.append_cons] at htoken
  refine ⟨token, htoken, by omega, Nat.lt_of_le_of_ne hreach ?_⟩
  intro hends
  obtain ⟨rule, hrule, before', taken, rest', hsplit, ht, rfl⟩ := horigin
  rw [List.append_cons, ← List.append_assoc] at hsplit
  have hsame : byteLength (before ++ [c]) = byteLength (before' ++ taken) := by
    rw [hends, byteLength_append]
    rfl
  obtain ⟨heq, rfl⟩ := append_inj_of_byteLength hsplit hsame
  rw [heq] at hseam
  exact ht.not_atSeam hrule seam before' hseam

/-- The first of some digits is covered. -/
theorem covered_of_digit {before rest : List Char} (hbefore : endsInDigit before = false)
    (hrest : startsWithDigit rest = true) : IsCovered before rest := by
  obtain ⟨rule, hrule, hp⟩ : ∃ rule ∈ Rule.table, rule.pattern = .digitRun := by decide
  obtain ⟨run, rest, rfl, -, ht⟩ := Rule.exists_takes_digitRun hp hrest
  apply covered_of_free hrule ht
  rw [← Nat.not_lt, Rule.cursor_digitRun hp hrest, hbefore]
  exact Bool.false_ne_true

/-- The front of the keyword `in` is covered. -/
theorem covered_of_in {before rest : List Char} {c d : Char} (hc : (Slot.letter 'i').fits c = true)
    (hd : (Slot.letter 'n').fits d = true) : IsCovered before (c :: d :: rest) := by
  obtain ⟨rule, hrule, hp⟩ : ∃ rule ∈ Rule.table, rule.pattern = .words ["in"] := by decide
  have ht : rule.Takes [c, d] rest := by
    simp only [Rule.Takes, hp, Pattern.words, Pattern.width?]
    simp [Shape.word, Shape.fits, hc, hd]
  apply covered_of_free hrule ht
  -- the word does not overlap itself: its second letter is not its first
  by_contra hblocked
  obtain ⟨earlier, front, back, rest', -, heq, hfront, hback, htakes, -⟩ :=
    Rule.exists_found_of_blocked (Nat.not_le.mp hblocked)
  obtain ⟨s, hs, t, hmem, hk, -, -, hagree⟩ | hquoted | ⟨hdigits, -⟩ :=
    Rule.overlap_shapes hback htakes ht heq.symm
  · have hall : ∀ s ∈ (Pattern.words ["in"]).alternatives,
        ∀ t ∈ (Pattern.words ["in"]).alternatives, ∀ k < s.length, 0 < k →
          Shape.agree (s.drop k) t = false := by
      decide
    rw [hp] at hs hmem
    rw [hall s hs t hmem _ hk (List.length_pos_iff.mpr hfront)] at hagree
    contradiction
  · rw [hp] at hquoted
    contradiction
  · rw [hp] at hdigits
    contradiction

/-- A text that ends in a colon does not end in a digit. -/
theorem endsInDigit_of_fits_colon {before : List Char}
    (h : Shape.fits (.word ":") before.reverse = true) : endsInDigit before = false := by
  obtain ⟨c, cs, hrev, hc, -⟩ := Shape.exists_cons_of_fits h
  have hbefore : before = cs.reverse ++ [c] := by
    rw [← List.reverse_reverse before, hrev, List.reverse_cons]
  rw [hbefore, endsInDigit_concat]
  cases hdigit : isDecimalDigit c with
  | false => rfl
  | true =>
      have hagree : (Slot.letter ':').agrees .digit = true := Slot.agrees_of_fits hc hdigit
      revert hagree
      decide

/-- At a seam a token covers the place. -/
theorem covered_of_atSeam {seam : Shape × Slot} {before rest : List Char}
    (h : AtSeam seam before rest) : IsCovered before rest := by
  obtain ⟨hseam, hfront, hback⟩ := h
  simp only [seams, List.mem_cons, List.not_mem_nil, or_false] at hseam
  rcases hseam with rfl | rfl | rfl
  · -- the last letter and the one behind the seam are a word
    have hseam : AtSeam (.word " i", .letter 'n') before rest := ⟨by decide, hfront, hback⟩
    obtain ⟨c, cs, hrev, hc, -⟩ := Shape.exists_cons_of_fits hfront
    obtain ⟨d, ds, rfl, hd, -⟩ := Shape.exists_cons_of_fits hback
    obtain rfl : before = cs.reverse ++ [c] := by
      rw [← List.reverse_reverse before, hrev, List.reverse_cons]
    exact covered_behind hseam (covered_of_in hc hd)
  · -- a number begins at the seam
    obtain ⟨d, ds, rfl, hd, -⟩ := Shape.exists_cons_of_fits hback
    exact covered_of_digit (endsInDigit_of_fits_colon hfront) hd
  · -- a number begins one digit before the seam
    have hseam : AtSeam (.word ":" ++ .digits 1, .digit) before rest := ⟨by decide, hfront, hback⟩
    obtain ⟨c, cs, hrev, hc, hcolon⟩ := Shape.exists_cons_of_fits hfront
    obtain rfl : before = cs.reverse ++ [c] := by
      rw [← List.reverse_reverse before, hrev, List.reverse_cons]
    have hends : endsInDigit cs.reverse = false := by
      apply endsInDigit_of_fits_colon
      rw [List.reverse_reverse]
      exact hcolon
    exact covered_behind hseam (covered_of_digit hends hc)

/-- Every quoted text that is found counts: a token that covers its opening quote is no other. -/
theorem mem_body_of_quoted {rule : Rule} (hrule : rule ∈ Rule.table) (hp : rule.pattern = .quoted)
    {cs : List Char} {token : Token} (h : token ∈ rule.findAll cs) :
    token ∈ Strategy.precedence.body cs := by
  obtain ⟨before, taken, rest, rfl, ht, hfree, rfl⟩ := Rule.exists_takes_of_mem_findAll h
  obtain ⟨inside, rfl, -⟩ := ht.quoted hp
  obtain ⟨found, hfound, hcontains⟩ := covered_of_free hrule ht hfree
  obtain ⟨index, rule', ⟨hindex, hmem⟩, -⟩ := isBest_of_mem_body hfound
  have hrule' : rule' ∈ Rule.table := List.mem_of_getElem? hindex
  have hp' : rule'.pattern = .quoted := by
    by_contra hother
    obtain ⟨before', taken', rest', hsplit, ht', -, rfl⟩ := Rule.exists_takes_of_mem_findAll hmem
    obtain ⟨left, right, -, rfl, hright, hne⟩ :=
      exists_parts_of_byteLength_lt hsplit.symm hcontains.1 hcontains.2
    obtain ⟨c, right, rfl⟩ := List.exists_cons_of_ne_nil hne
    obtain ⟨rfl, -⟩ := List.cons.inj hright
    exact ht'.ne_quote hrule' hother '\'' (by simp) rfl
  rw [Rule.eq_quotedText hrule' hp', ← Rule.eq_quotedText hrule hp] at hmem
  have hbegins : (rule.token (byteLength before) ('\'' :: (inside ++ ['\'']))).span.Contains
      (byteLength before) :=
    ⟨Nat.le_refl _, Token.FromRule.start_lt_stop ⟨rule, hrule, before, _, rest, rfl, ht, rfl⟩⟩
  rwa [← Token.eq_of_contains (rule.pairwise_findAll _) hmem h hcontains hbegins]

/-- Digits that nothing covers, although a number has begun before them, go on behind a moment. -/
theorem exists_dateTime_of_digits {rule : Rule} (hrule : rule ∈ Rule.table)
    (hp : rule.pattern = .digitRun) {before front back rest : List Char} (hback : back ≠ [])
    (ht : rule.Takes (front ++ back) rest)
    (hfree : (rule.cursor before (front ++ back ++ rest)).free ≤ byteLength before)
    (hout : ¬ IsCovered (before ++ front) (back ++ rest)) :
    ∃ token ∈ Strategy.precedence.body (before ++ front ++ (back ++ rest)),
      token.kind = .dateTime ∧ InDigitRun (before ++ front ++ (back ++ rest)) token.span.stop
        (byteLength (before ++ front)) := by
  have hsame : before ++ (front ++ back ++ rest) = before ++ front ++ (back ++ rest) := by simp
  have hdigits := (ht.digits hp).1
  obtain ⟨token, htoken, hcontains⟩ := covered_of_free hrule ht hfree
  obtain ⟨rule', hrule', before', taken, rest', hsplit, ht', rfl⟩ := origin_of_mem_run htoken
  rw [hsame] at htoken
  obtain ⟨left, right, rfl, rfl, hright, hne⟩ :=
    exists_parts_of_byteLength_lt hsplit.symm hcontains.1 hcontains.2
  obtain ⟨hlow, hhigh⟩ := hcontains
  -- the token that covers the first digit ends among the digits
  have hends : byteLength right ≤ byteLength front := by
    by_contra hlonger
    refine hout ⟨_, htoken, ?_, ?_⟩
    · simp only [Rule.token, byteLength_append]
      omega
    · simp only [Rule.token, byteLength_append]
      omega
  rw [List.append_assoc] at hright
  obtain ⟨run, rfl, rfl⟩ := exists_append_of_byteLength_le hright.symm hends
  have hrun : ∀ c ∈ run ++ back, isDecimalDigit c = true := by
    intro c hc
    rw [List.append_assoc] at hdigits
    exact hdigits c (List.mem_append_right right hc)
  have hdigit : endsInDigit (left ++ right) = true := by
    rw [endsInDigit_append left hne]
    exact endsInDigit_of_all hne fun c hc => hdigits c (by simp [hc])
  have hkind : rule'.kind = .dateTime := by
    obtain hmoment | hnumber := (Rule.endsInDigit_iff hrule' ht').mp hdigit
    · exact hmoment
    · -- a number does not end before a digit
      have hstops := (ht'.digits ((Rule.pattern_iff_kind hrule').2.1.mpr hnumber)).2
      rw [← List.append_assoc, startsWithDigit_of_all (by simp [hback]) hrun] at hstops
      contradiction
  have hpos : byteLength back ≠ 0 := by simpa [byteLength_eq_zero] using hback
  refine ⟨_, htoken, hkind, before' ++ left ++ right, run ++ back, rest, by simp, ?_, hrun, ?_, ?_⟩
  · simp only [Rule.token, byteLength_append]
    omega
  · simp only [Rule.token, byteLength_append]
    omega
  · simp only [Rule.token, byteLength_append]
    omega

/-- What takes something at a place that no token covers is a number behind a moment. -/
theorem exists_dateTime_of_uncovered {rule : Rule} (hrule : rule ∈ Rule.table)
    {before taken rest : List Char} (ht : rule.Takes taken rest)
    (hout : ¬ IsCovered before (taken ++ rest)) :
    rule.pattern = .digitRun ∧ ∃ token ∈ Strategy.precedence.body (before ++ (taken ++ rest)),
      token.kind = .dateTime ∧
        InDigitRun (before ++ (taken ++ rest)) token.span.stop (byteLength before) := by
  have hblocked : byteLength before < (rule.cursor before (taken ++ rest)).free := by
    by_contra hfree
    exact hout (covered_of_free hrule ht (Nat.not_lt.mp hfree))
  obtain ⟨earlier, front, back, rest', rfl, heq, hfront, hback, htakes, hfound, hfree⟩ :=
    Rule.exists_found_of_blocked hblocked
  rw [heq] at hout hfound ⊢
  obtain ⟨seam, hseam⟩ | hquoted | ⟨hdigits, -⟩ :=
    Rule.atSeam_of_overlap hrule hfront hback htakes ht heq.symm
  · exact absurd (covered_of_atSeam (hseam.append_left earlier)) hout
  · refine absurd ⟨_, mem_body_of_quoted hrule hquoted hfound, ?_⟩ hout
    have hpos : byteLength back ≠ 0 := by simpa [byteLength_eq_zero] using hback
    simp only [Span.Contains, Rule.token, byteLength_append]
    omega
  · exact ⟨hdigits, exists_dateTime_of_digits hrule hdigits hback htakes hfree hout⟩

end Precedence

/-! ### The whole text -/

/-- A place among digits has a digit behind it. -/
theorem Text.InDigitRun.startsWithDigit {before rest : List Char} {start : Nat}
    (h : InDigitRun (before ++ rest) start (byteLength before)) :
    Text.startsWithDigit rest = true := by
  obtain ⟨front, run, after, hsplit, rfl, hdigits, hlow, hhigh⟩ := h
  obtain ⟨left, right, -, rfl, rfl, hne⟩ := exists_parts_of_byteLength_lt hsplit.symm hlow hhigh
  exact startsWithDigit_of_all hne (fun c hc => hdigits c (List.mem_append_right left hc)) after

/-- At a place of the text that lies in no token of the precedence strategy, a rule matches exactly
if it is the rule of numbers and the place lies among the digits that begin where a moment among the
tokens ends. -/
theorem dropped_text_matches_no_rule {text : String} {before rest : List Char}
    (hsplit : text.toList = before ++ rest)
    (hout : ∀ token ∈ Strategy.precedence.tokenize text, ¬ token.span.Contains (byteLength before))
    {rule : Rule} (hrule : rule ∈ Rule.table) :
    (rule.tokenAt? (byteLength before) rest).isSome = true ↔
      rule.kind = .number ∧ ∃ token ∈ Strategy.precedence.tokenize text, token.kind = .dateTime ∧
        InDigitRun text.toList token.span.stop (byteLength before) := by
  constructor
  · intro hmatch
    obtain ⟨token, htoken⟩ := Option.isSome_iff_exists.mp hmatch
    obtain ⟨taken, rest, rfl, ht, -⟩ := Rule.exists_takes_of_tokenAt? htoken
    rw [Strategy.tokenize_eq_body, hsplit] at hout ⊢
    have huncovered : ¬ Precedence.IsCovered before (taken ++ rest) := by
      rintro ⟨token, htoken, hcontains⟩
      exact hout token (List.mem_append_left _ htoken) hcontains
    obtain ⟨hp, moment, hmoment, hbehind⟩ :=
      Precedence.exists_dateTime_of_uncovered hrule ht huncovered
    exact ⟨(Rule.pattern_iff_kind hrule).2.1.mp hp, moment, List.mem_append_left _ hmoment, hbehind⟩
  · rintro ⟨hkind, token, -, -, hdigits⟩
    rw [hsplit] at hdigits
    have hp := (Rule.pattern_iff_kind hrule).2.1.mpr hkind
    obtain ⟨run, rest, rfl, -, ht⟩ := Rule.exists_takes_digitRun hp hdigits.startsWithDigit
    rw [Rule.tokenAt?_of_takes ht]
    rfl

/-- Behind a moment with two digits too many both digits are dropped, and the last of them is a
number. -/
theorem dropped_text_matches_no_rule_behind_moment :
    ∃ rule ∈ Rule.table, rule.kind = .number ∧
      (∀ token ∈ Strategy.precedence.tokenize "2016-01-01 00:00:0012x", ¬ token.span.Contains 20) ∧
      (rule.tokenAt? 20 "2x".toList).isSome = true := by
  have hout : ∀ token ∈ Strategy.precedence.tokenize "2016-01-01 00:00:0012x",
      ¬ token.span.Contains 20 := by
    decide +kernel
  obtain ⟨rule, hrule, hkind⟩ : ∃ rule ∈ Rule.table, rule.kind = .number := by decide
  have hsplit : "2016-01-01 00:00:0012x".toList = "2016-01-01 00:00:001".toList ++ "2x".toList := by
    decide
  refine ⟨rule, hrule, hkind, hout, (dropped_text_matches_no_rule hsplit hout hrule).mpr ?_⟩
  refine ⟨hkind, ⟨.dateTime, "2016-01-01 00:00:00", ⟨0, 19⟩⟩, by decide +kernel, rfl,
    "2016-01-01 00:00:00".toList, "12".toList, "x".toList, by decide +kernel, by decide,
    List.all_eq_true.mp (by decide), ?_⟩
  decide

end ErrorQuery
