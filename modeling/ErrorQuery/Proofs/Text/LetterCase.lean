import ErrorQuery.Proofs.Text.Classes
import ErrorQuery.Text.Bytes
import Mathlib.Data.List.Forall2

/-!
# Texts that differ in letter case only

Two characters are the same but for case if lowering the ASCII capitals makes them equal.  Then
they are equal, or both are ASCII letters (`SameButCase.eq_or_letters`), and no class of characters
that the language knows tells two ASCII letters apart: neither is a blank, a digit or a quote, both
take one byte, and words are matched up to folding anyway.
-/

set_option autoImplicit false

namespace ErrorQuery.Text

/-! ### Lowering -/

/-- Lowering moves a capital letter and leaves every other character where it is. -/
theorem toLower_cases (c : Char) :
    c.toLower = c ∨ (65 ≤ c.toNat ∧ c.toNat ≤ 90 ∧ c.toLower.toNat = c.toNat + 32) := by
  by_cases h : c.val ≥ 'A'.val ∧ c.val ≤ 'Z'.val
  · right
    have hlow : 65 ≤ c.toNat := h.1
    have hhigh : c.toNat ≤ 90 := h.2
    have hlower : c.toLower = ⟨c.val + ('a'.val - 'A'.val), _⟩ := dif_pos h
    have hval : c.toLower.val = c.val + 32 := congrArg Char.val hlower
    have hnat : c.toLower.toNat = (c.val + 32).toNat := congrArg UInt32.toNat hval
    have hbound : c.val.toNat ≤ 90 := hhigh
    rw [UInt32.toNat_add] at hnat
    refine ⟨hlow, hhigh, ?_⟩
    rw [hnat]
    show (c.val.toNat + 32) % 4294967296 = c.val.toNat + 32
    omega
  · left
    exact dif_neg h

/-- Nothing but itself folds onto a character that is no small letter. -/
theorem eq_of_fold_eq {c m : Char} (hm : m.toNat < 97 ∨ 122 < m.toNat) (h : fold c = m) :
    c = m := by
  rw [fold] at h
  split at h
  · subst h
    exact absurd hm (by decide)
  · split at h
    · subst h
      exact absurd hm (by decide)
    · rcases toLower_cases c with hsame | ⟨hlow, hhigh, hlower⟩
      · rw [← hsame, h]
      · rw [h] at hlower
        omega

/-! ### Characters -/

/-- The characters differ at most in the case of an ASCII letter. -/
def SameButCase (c d : Char) : Prop :=
  c.toLower = d.toLower

instance (c d : Char) : Decidable (SameButCase c d) :=
  inferInstanceAs (Decidable (_ = _))

/-- The ranges of the ASCII letters. -/
def letterRanges : List (Nat × Nat) :=
  [(0x41, 0x5A), (0x61, 0x7A)]

/-- Whether a character is an ASCII letter. -/
def isLetter (c : Char) : Bool :=
  inRanges c.toNat letterRanges

/-- The letters with two cases by their code points. -/
theorem isLetter_iff {c : Char} :
    isLetter c = true ↔ (65 ≤ c.toNat ∧ c.toNat ≤ 90) ∨ (97 ≤ c.toNat ∧ c.toNat ≤ 122) := by
  simp only [isLetter, inRanges, letterRanges, Bool.and_eq_true, Bool.or_eq_true,
    decide_eq_true_eq, Bool.false_eq_true, or_false]
  omega

namespace SameButCase

variable {c d : Char}

/-- A character is the same as itself. -/
theorem refl (c : Char) : SameButCase c c :=
  Eq.refl c.toLower

/-- Characters that are the same but for case are equal, or both are letters. -/
theorem eq_or_letters (h : SameButCase c d) :
    c = d ∨ (isLetter c = true ∧ isLetter d = true) := by
  have hlower : c.toLower = d.toLower := h
  rw [isLetter_iff, isLetter_iff]
  rcases toLower_cases c with hc | ⟨hc, hc', hcsum⟩
  · rcases toLower_cases d with hd | ⟨hd, hd', hdsum⟩
    · left
      rw [← hc, hlower, hd]
    · rw [← hlower, hc] at hdsum
      omega
  · rcases toLower_cases d with hd | ⟨hd, hd', -⟩
    · rw [hlower, hd] at hcsum
      omega
    · omega

/-- What all letters share is shared by characters that are the same but for case. -/
theorem congr_of_letters {α : Type} {f : Char → α} {a : α}
    (hf : ∀ c, isLetter c = true → f c = a) (h : SameButCase c d) : f c = f d := by
  rcases h.eq_or_letters with rfl | ⟨hc, hd⟩
  · rfl
  · rw [hf c hc, hf d hd]

/-- The case of a letter does not make it a blank. -/
theorem isBlank_eq (h : SameButCase c d) : isBlank c = isBlank d := by
  refine h.congr_of_letters (a := false) fun c hc => not_inRanges_of_apart ?_ hc
  decide

/-- The case of a letter does not make it a digit. -/
theorem isDecimalDigit_eq (h : SameButCase c d) : isDecimalDigit c = isDecimalDigit d := by
  refine h.congr_of_letters (a := false) fun c hc => not_inRanges_of_apart ?_ hc
  decide

/-- The case of a letter does not change its size. -/
theorem utf8Size_eq (h : SameButCase c d) : c.utf8Size = d.utf8Size := by
  refine h.congr_of_letters (a := 1) fun c hc => Char.utf8Size_eq_one_iff.mpr ?_
  have hrange := isLetter_iff.mp hc
  show c.toNat ≤ 127
  omega

/-- No letter is folded from elsewhere, so folding a letter lowers it. -/
theorem fold_eq (h : SameButCase c d) : fold c = fold d := by
  have hfold : ∀ c, isLetter c = true → fold c = c.toLower := by
    intro c hc
    have hkelvin : c ≠ '\u212a' := by
      rintro rfl
      revert hc
      decide
    have hlong : c ≠ '\u017f' := by
      rintro rfl
      revert hc
      decide
    rw [fold, if_neg hkelvin, if_neg hlong]
  rcases h.eq_or_letters with rfl | ⟨hc, hd⟩
  · rfl
  · rw [hfold c hc, hfold d hd]
    exact h

/-- A character that is no letter stays as it is. -/
theorem eq_of_not_isLetter (h : SameButCase c d) (hc : isLetter c = false) : c = d := by
  rcases h.eq_or_letters with hsame | ⟨hletter, -⟩
  · exact hsame
  · rw [hc] at hletter
    contradiction

end SameButCase

/-! ### Texts -/

/-- The texts are equally long and differ at most in the case of ASCII letters. -/
abbrev SameTextButCase (cs ds : List Char) : Prop :=
  List.Forall₂ SameButCase cs ds

namespace SameTextButCase

variable {cs ds : List Char}

/-- A text is the same as itself. -/
theorem refl (cs : List Char) : SameTextButCase cs cs :=
  List.forall₂_same.mpr fun c _ => .refl c

/-- The case of letters does not change the length of a text. -/
theorem byteLength_eq (h : SameTextButCase cs ds) : byteLength cs = byteLength ds := by
  induction h with
  | nil => rfl
  | cons hc _ ih => rw [byteLength_cons, byteLength_cons, hc.utf8Size_eq, ih]

/-- A run of characters of a class that letter case does not matter for ends at the same place. -/
theorem takeWhile {p : Char → Bool} (hp : ∀ {c d}, SameButCase c d → p c = p d)
    (h : SameTextButCase cs ds) : SameTextButCase (cs.takeWhile p) (ds.takeWhile p) := by
  induction h with
  | nil => exact .nil
  | @cons c d _ _ hc _ ih =>
      rw [List.takeWhile_cons, List.takeWhile_cons, ← hp hc]
      split
      · exact .cons hc ih
      · exact .nil

/-- Texts without letters are the same only if they are equal. -/
theorem eq_of_not_isLetter (h : SameTextButCase cs ds) (hcs : ∀ c ∈ cs, isLetter c = false) :
    cs = ds := by
  induction h with
  | nil => rfl
  | @cons c d cs ds hc _ ih =>
      have hhead := hc.eq_of_not_isLetter (hcs c (by simp))
      rw [hhead, ih fun e he => hcs e (List.mem_cons_of_mem c he)]

end SameTextButCase

end ErrorQuery.Text
