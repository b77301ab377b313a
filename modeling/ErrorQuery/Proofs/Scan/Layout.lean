import ErrorQuery.Proofs.Scan.Lexemes

/-!
# Tokens written out and found again

A `Spelling` is a text that the rule of some kind takes as a whole, and a `Layout` writes spellings
one behind the other with blanks between them.  Whatever the kinds and their order, both strategies
find exactly the spellings again, each where it was written (`spellings_are_found_again`).

A rule leads in front of a blank (`Rule.leads_of_takes`), so a layout falls into its tokens and
blanks (`Layout.tiling`).  The precedence scan passes over nothing but a number glued to a moment,
and in a layout nothing is glued (`Layout.withoutGlued_tokensFrom`).
-/

set_option autoImplicit false

namespace ErrorQuery

open Text

/-! ### Spellings -/

instance Rule.decidableTakes (rule : Rule) (taken rest : List Char) :
    Decidable (rule.Takes taken rest) :=
  inferInstanceAs (Decidable (rule.pattern.width? (taken ++ rest) = some taken.length))

/-- A kind and a text that its rule takes as a whole. -/
structure Spelling where
  kind : Kind
  chars : List Char
  spells : ∃ rule ∈ Rule.ofKind? kind, rule.Takes chars []

namespace Spelling

/-- The value of a spelling: a quoted text without its quotes, any other text as it is. -/
def value (spelling : Spelling) : List Char :=
  match spelling.kind with
  | .text => spelling.chars.tail.dropLast
  | _ => spelling.chars

/-- The token of a spelling that is written at the given byte. -/
def token (spelling : Spelling) (position : Nat) : Token :=
  ⟨spelling.kind, String.ofList spelling.value,
    ⟨position, position + byteLength spelling.chars⟩⟩

/-- The rule of the kind makes the token of the spelling. -/
theorem exists_rule (spelling : Spelling) :
    ∃ rule ∈ Rule.table, rule.Takes spelling.chars [] ∧
      ∀ position, rule.token position spelling.chars = spelling.token position := by
  obtain ⟨rule, hfind, ht⟩ := spelling.spells
  have hrule : rule ∈ Rule.table := List.mem_of_find?_eq_some hfind
  have hkind : rule.kind = spelling.kind := by
    have hfound := List.find?_some hfind
    simpa using hfound
  have hvalue : rule.pattern.value spelling.chars = spelling.value := by
    have hquoted := (Rule.pattern_iff_kind hrule).1
    rw [hkind] at hquoted
    unfold value
    split
    · next htext =>
      rw [hquoted.mpr htext, Pattern.value, List.drop_one]
    · next htext =>
      cases hp : rule.pattern with
      | quoted => exact absurd (hquoted.mp hp) htext
      | shapes alternatives => rfl
      | digitRun => rfl
  refine ⟨rule, hrule, ht, fun position => ?_⟩
  rw [Rule.token, token, hkind, hvalue]

end Spelling

/-- A token is not glued to one that ends elsewhere. -/
theorem Token.isGluedTo_of_ne {token : Token} {previous : Option Token}
    (h : ∀ p ∈ previous, p.span.stop ≠ token.span.start) : token.isGluedTo previous = false := by
  cases previous with
  | none => simp [isGluedTo]
  | some p =>
      have hstop := h p rfl
      simp [isGluedTo, hstop]

/-! ### Layouts -/

/-- Spellings in the order in which they are written, with the blanks in front of each of them and
those behind the last.  Only in front of the first there may be none. -/
structure Layout where
  entries : List (List Char × Spelling)
  trailing : List Char
  blank_gaps : ∀ entry ∈ entries, ∀ c ∈ entry.1, isBlank c = true
  blank_trailing : ∀ c ∈ trailing, isBlank c = true
  apart : ∀ entry ∈ entries.tail, entry.1 ≠ []

namespace Layout

/-- The characters of a layout. -/
def chars (layout : Layout) : List Char :=
  layout.entries.flatMap (fun entry => entry.1 ++ entry.2.chars) ++ layout.trailing

/-- The text of a layout. -/
def text (layout : Layout) : String :=
  String.ofList layout.chars

/-- The tokens of spellings that are written from the given byte on. -/
def tokensFrom : Nat → List (List Char × Spelling) → List Token
  | _, [] => []
  | position, (gap, spelling) :: entries =>
      let token := spelling.token (position + byteLength gap)
      token :: tokensFrom token.span.stop entries

/-- The tokens of a layout. -/
def tokens (layout : Layout) : List Token :=
  tokensFrom 0 layout.entries

/-- Behind a spelling the text ends or a blank follows. -/
theorem blank_head {entries : List (List Char × Spelling)} {trailing : List Char}
    (hblank : ∀ entry ∈ entries, ∀ c ∈ entry.1, isBlank c = true)
    (htrailing : ∀ c ∈ trailing, isBlank c = true) (hapart : ∀ entry ∈ entries, entry.1 ≠ []) :
    ∀ c ∈ (entries.flatMap (fun entry => entry.1 ++ entry.2.chars) ++ trailing).head?,
      isBlank c = true := by
  intro c hc
  cases entries with
  | nil => exact htrailing c (List.mem_of_mem_head? hc)
  | cons entry entries =>
      obtain ⟨b, gap, hgap⟩ := List.exists_cons_of_ne_nil (hapart entry List.mem_cons_self)
      have hb : b = c := by simpa [hgap] using hc
      refine hblank entry List.mem_cons_self c ?_
      rw [hgap, hb]
      exact List.mem_cons_self

/-- A layout falls into its tokens and blanks. -/
theorem tiling_tokensFrom {entries : List (List Char × Spelling)} {trailing : List Char}
    (hblank : ∀ entry ∈ entries, ∀ c ∈ entry.1, isBlank c = true)
    (htrailing : ∀ c ∈ trailing, isBlank c = true)
    (hapart : ∀ entry ∈ entries.tail, entry.1 ≠ []) (position : Nat) :
    Tiling position (entries.flatMap (fun entry => entry.1 ++ entry.2.chars) ++ trailing)
      (tokensFrom position entries) := by
  induction entries generalizing position with
  | nil =>
      have htiling : Tiling position (trailing ++ []) [] := .blanks htrailing .nil
      rwa [List.append_nil] at htiling
  | cons entry entries ih =>
      obtain ⟨gap, spelling⟩ := entry
      obtain ⟨hgap, hgaps⟩ := List.forall_mem_cons.mp hblank
      obtain ⟨rule, hrule, ht, htoken⟩ := spelling.exists_rule
      have hleads := Rule.leads_of_takes hrule ht (blank_head hgaps htrailing hapart)
      have hrest := ih hgaps (fun entry hentry => hapart entry (List.mem_of_mem_tail hentry))
        (spelling.token (position + byteLength gap)).span.stop
      rw [List.flatMap_cons, List.append_assoc, List.append_assoc, tokensFrom, ← htoken]
      exact .blanks hgap (.token hleads hrest)

/-- The blanks between the spellings keep them from being glued to each other. -/
theorem withoutGlued_tokensFrom {entries : List (List Char × Spelling)}
    (hapart : ∀ entry ∈ entries.tail, entry.1 ≠ []) {previous : Option Token} {position : Nat}
    (hprevious : ∀ token ∈ previous, ∀ entry ∈ entries.head?,
      token.span.stop < position + byteLength entry.1) :
    withoutGlued previous (tokensFrom position entries) = tokensFrom position entries := by
  induction entries generalizing previous position with
  | nil => rfl
  | cons entry entries ih =>
      have hfree : (entry.2.token (position + byteLength entry.1)).isGluedTo previous = false := by
        apply Token.isGluedTo_of_ne
        intro token htoken
        exact Nat.ne_of_lt (hprevious token htoken entry rfl)
      rw [tokensFrom, withoutGlued, hfree, if_neg Bool.false_ne_true, ih]
      · exact fun later hlater => hapart later (List.mem_of_mem_tail hlater)
      · intro token htoken next hnext
        obtain rfl : _ = token := by simpa using htoken
        have hgap : next.1 ≠ [] := hapart next (List.mem_of_mem_head? hnext)
        have hpos : byteLength next.1 ≠ 0 := by simpa [byteLength_eq_zero] using hgap
        omega

/-- A layout falls into its tokens and blanks. -/
theorem tiling (layout : Layout) : Tiling 0 layout.chars layout.tokens :=
  tiling_tokensFrom layout.blank_gaps layout.blank_trailing layout.apart 0

/-- No token of a layout is glued to the one before it. -/
theorem withoutGlued_tokens (layout : Layout) : withoutGlued none layout.tokens = layout.tokens :=
  withoutGlued_tokensFrom layout.apart (by simp)

end Layout

/-- Whatever spellings a text is written of, both strategies find them in it, one by one and each at
its place, and nothing else. -/
theorem spellings_are_found_again (strategy : Strategy) (layout : Layout) :
    strategy.tokenize layout.text = layout.tokens ++ [.terminator layout.text.utf8ByteSize] := by
  have hbody : strategy.body layout.chars = layout.tokens := by
    obtain ⟨hsequential, hprecedence⟩ := Strategy.body_of_tiling layout.tiling
    cases strategy with
    | sequential => exact hsequential
    | precedence => rw [hprecedence, layout.withoutGlued_tokens]
  rw [Strategy.tokenize_eq_body, byteLength_toList, Layout.text, String.toList_ofList, hbody]

/-- Words in any case, a text that names a word and a number behind a moment are found again between
blanks of one and of three bytes. -/
theorem spellings_are_found_again_behind_wide_blank :
    ∃ layout : Layout, layout.text = "NOT IN\u2003in\t'or'  2016-01-01 00:00:00 7\nli\u212ae " ∧
      Strategy.sequential.tokenize layout.text = layout.tokens ++ [.terminator 47] ∧
      Strategy.precedence.tokenize layout.text = layout.tokens ++ [.terminator 47] ∧
      layout.tokens =
        [⟨.operator .noneOf, "NOT IN", ⟨0, 6⟩⟩, ⟨.operator .oneOf, "in", ⟨9, 11⟩⟩,
          ⟨.text, "or", ⟨12, 16⟩⟩, ⟨.dateTime, "2016-01-01 00:00:00", ⟨18, 37⟩⟩,
          ⟨.number, "7", ⟨38, 39⟩⟩, ⟨.operator .like, "li\u212ae", ⟨40, 46⟩⟩] := by
  let entries : List (List Char × Spelling) :=
    [([], ⟨.operator .noneOf, "NOT IN".toList, by decide⟩),
      ("\u2003".toList, ⟨.operator .oneOf, "in".toList, by decide⟩),
      ("\t".toList, ⟨.text, "'or'".toList, by decide⟩),
      ("  ".toList, ⟨.dateTime, "2016-01-01 00:00:00".toList, by decide⟩),
      (" ".toList, ⟨.number, "7".toList, by decide⟩),
      ("\n".toList, ⟨.operator .like, "li\u212ae".toList, by decide⟩)]
  let layout : Layout :=
    { entries
      trailing := " ".toList
      blank_gaps := by
        have hgaps : (entries.all fun entry => entry.1.all isBlank) = true := by decide +kernel
        simpa only [List.all_eq_true] using hgaps
      blank_trailing := List.all_eq_true.mp (by decide)
      apart := by decide }
  have hsize : layout.text.utf8ByteSize = 47 := by decide +kernel
  have hfound (strategy : Strategy) := spellings_are_found_again strategy layout
  rw [hsize] at hfound
  exact ⟨layout, by decide +kernel, hfound .sequential, hfound .precedence, by decide +kernel⟩

end ErrorQuery
