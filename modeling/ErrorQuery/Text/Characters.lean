/-!
# Classes of characters

A character class of the language is a list of closed ranges of code points in increasing
order.  `inRanges` decides membership and stops at the first range that begins past the code
point asked for, so a class is as quick for common characters as a short test would be.  Blanks
are one such class; letters are compared regardless of case by their foldings.
-/

set_option autoImplicit false

namespace ErrorQuery.Text

/-! ## Ranges of code points -/

/-- Whether a code point lies in one of the given ranges, which stand in increasing order. -/
def inRanges (n : Nat) : List (Nat × Nat) → Bool
  | [] => false
  | (low, high) :: ranges => decide (low ≤ n) && (decide (n ≤ high) || inRanges n ranges)

/-- Membership only ever comes from a range of the list. -/
theorem exists_range_of_inRanges {n : Nat} {ranges : List (Nat × Nat)}
    (h : inRanges n ranges = true) : ∃ r ∈ ranges, r.1 ≤ n ∧ n ≤ r.2 := by
  induction ranges with
  | nil => simp [inRanges] at h
  | cons r ranges ih =>
      obtain ⟨low, high⟩ := r
      simp only [inRanges, Bool.and_eq_true, Bool.or_eq_true, decide_eq_true_eq] at h
      rcases h.2 with hn | hn
      · exact ⟨(low, high), by simp, h.1, hn⟩
      · obtain ⟨r, hr, hle⟩ := ih hn
        exact ⟨r, by simp [hr], hle⟩

/-! ## Blanks

The blanks of the language are the twenty-five characters of the Unicode property
`White_Space`.  They separate tokens; a text is trimmed by taking them off both ends. -/

/-- The ranges of the blank characters. -/
def blankRanges : List (Nat × Nat) :=
  [(0x9, 0xD), (0x20, 0x20), (0x85, 0x85), (0xA0, 0xA0), (0x1680, 0x1680), (0x2000, 0x200A),
    (0x2028, 0x2029), (0x202F, 0x202F), (0x205F, 0x205F), (0x3000, 0x3000)]

/-- Whether a character is blank. -/
def isBlank (c : Char) : Bool :=
  inRanges c.toNat blankRanges

/-- The text without the blanks at its front. -/
def trimFront (cs : List Char) : List Char :=
  cs.dropWhile isBlank

/-- The text without the blanks at either end. -/
def trim (cs : List Char) : List Char :=
  (trimFront (trimFront cs).reverse).reverse

/-- A space is blank. -/
theorem isBlank_space : isBlank ' ' = true := by
  decide

/-! ## Letters regardless of case

Keywords are matched without regard to case.  Two characters count as the same letter when
their simple case foldings agree; for the letters `a` to `z` that means the two ASCII cases,
and besides them the Kelvin sign for `k` and the long s for `s`.  No other character folds
onto an ASCII letter: dotted capital I and dotless i in particular do not. -/

/-- The simple case folding of a character, as far as it lands in the ASCII range; any other
character stands for itself. -/
def fold (c : Char) : Char :=
  if c = '\u212a' then 'k' else if c = '\u017f' then 's' else c.toLower

/-- Whether two characters are the same letter regardless of case. -/
def sameLetter (c d : Char) : Bool :=
  fold c == fold d

/-- Characters with the same folding are the same letter. -/
theorem sameLetter_iff {c d : Char} : sameLetter c d = true ↔ fold c = fold d := by
  simp [sameLetter]

end ErrorQuery.Text
