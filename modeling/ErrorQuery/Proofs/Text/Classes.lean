import ErrorQuery.Text.Characters
import ErrorQuery.Text.Numeral

/-!
# Digits and blanks under folding

Words are matched up to folding, digits and blanks by their class.  The two ways do not mix:
folding leaves every digit and every blank as it is, and no blank is a digit.
-/

set_option autoImplicit false

namespace ErrorQuery.Text

/-- The ranges of the characters that folding may change. -/
def foldedRanges : List (Nat × Nat) :=
  [(0x41, 0x5A), (0x17F, 0x17F), (0x212A, 0x212A)]

/-- Folding changes only the characters of its ranges. -/
theorem fold_eq_self {c : Char} (h : inRanges c.toNat foldedRanges = false) : fold c = c := by
  have hkelvin : c ≠ '\u212a' := by
    rintro rfl
    revert h
    decide
  have hlong : c ≠ '\u017f' := by
    rintro rfl
    revert h
    decide
  have hcap : ¬ (c.val ≥ 'A'.val ∧ c.val ≤ 'Z'.val) := by
    rintro ⟨hlow, hhigh⟩
    have h1 : 65 ≤ c.toNat := hlow
    have h2 : c.toNat ≤ 90 := hhigh
    simp [inRanges, foldedRanges, h1, h2] at h
  have hlower : c.toLower = c := dif_neg hcap
  rw [fold, if_neg hkelvin, if_neg hlong, hlower]

/-- Two classes of characters share no member if their ranges keep apart. -/
theorem not_inRanges_of_apart {n : Nat} {rs ss : List (Nat × Nat)}
    (hapart : ∀ r ∈ rs, ∀ s ∈ ss, r.2 < s.1 ∨ s.2 < r.1) (hn : inRanges n rs = true) :
    inRanges n ss = false := by
  cases hss : inRanges n ss with
  | false => rfl
  | true =>
      obtain ⟨r, hr, hrn⟩ := exists_range_of_inRanges hn
      obtain ⟨s, hs, hsn⟩ := exists_range_of_inRanges hss
      have h := hapart r hr s hs
      omega

/-- No blank is a digit. -/
theorem isDecimalDigit_of_isBlank {c : Char} (h : isBlank c = true) :
    isDecimalDigit c = false := by
  refine not_inRanges_of_apart ?_ h
  decide

/-- A digit has no case. -/
theorem fold_of_isDecimalDigit {c : Char} (h : isDecimalDigit c = true) : fold c = c := by
  refine fold_eq_self (not_inRanges_of_apart ?_ h)
  decide

/-- A blank has no case. -/
theorem fold_of_isBlank {c : Char} (h : isBlank c = true) : fold c = c := by
  refine fold_eq_self (not_inRanges_of_apart ?_ h)
  decide

/-- Whether a text begins with a digit. -/
def startsWithDigit (cs : List Char) : Bool :=
  cs.head?.any isDecimalDigit

/-- Whether a text ends in a digit. -/
def endsInDigit (cs : List Char) : Bool :=
  cs.getLast?.any isDecimalDigit

/-- An empty text does not start with a digit. -/
@[simp] theorem startsWithDigit_nil : startsWithDigit [] = false := rfl

/-- A text starts with a digit if its first character is one. -/
@[simp] theorem startsWithDigit_cons (c : Char) (cs : List Char) :
    startsWithDigit (c :: cs) = isDecimalDigit c := rfl

/-- An empty text does not end in a digit. -/
@[simp] theorem endsInDigit_nil : endsInDigit [] = false := rfl

/-- A text ends in a digit if its last character is one. -/
@[simp] theorem endsInDigit_concat (cs : List Char) (c : Char) :
    endsInDigit (cs ++ [c]) = isDecimalDigit c := by
  simp [endsInDigit]

/-- How a text ends is decided by its last part. -/
theorem endsInDigit_append (cs : List Char) {ds : List Char} (h : ds ≠ []) :
    endsInDigit (cs ++ ds) = endsInDigit ds := by
  rw [endsInDigit, endsInDigit, List.getLast?_append, List.getLast?_eq_some_getLast h]
  rfl

/-- A text of digits ends in one. -/
theorem endsInDigit_of_all {cs : List Char} (hne : cs ≠ [])
    (h : ∀ c ∈ cs, isDecimalDigit c = true) : endsInDigit cs = true := by
  rw [endsInDigit, List.getLast?_eq_some_getLast hne]
  exact h _ (List.getLast_mem hne)

/-- A text with digits at its front starts with one. -/
theorem startsWithDigit_of_all {cs : List Char} (hne : cs ≠ [])
    (h : ∀ c ∈ cs, isDecimalDigit c = true) (ds : List Char) :
    startsWithDigit (cs ++ ds) = true := by
  obtain ⟨c, cs, rfl⟩ := List.exists_cons_of_ne_nil hne
  exact h c List.mem_cons_self

end ErrorQuery.Text
