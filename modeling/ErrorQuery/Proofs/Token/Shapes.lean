import ErrorQuery.Proofs.Text.Classes
import ErrorQuery.Token.Pattern

/-!
# Shapes that fit the same text

A shape asks one thing of each character.  Two shapes that fit the same text agree slot by slot
(`Shape.agree`), a shape that fits a text fits it from its end as well, and a shape none of whose
slots fits a character never reaches past it.  Agreement is decided on the slots alone, so that
what the finitely many shapes of the language can share is settled by computation.
-/

set_option autoImplicit false

namespace ErrorQuery

open Text

/-! ### Slots -/

namespace Slot

/-- Whether some character may fit both slots. -/
def agrees : Slot → Slot → Bool
  | .letter a, .letter b => fold a == fold b
  | .letter a, .digit => isDecimalDigit (fold a)
  | .digit, .letter b => isDecimalDigit (fold b)
  | .digit, .digit => true

/-- Whether some blank may fit the slot. -/
def admitsBlank : Slot → Bool
  | .letter a => isBlank (fold a)
  | .digit => false

/-- Slots that fit the same character agree. -/
theorem agrees_of_fits {a b : Slot} {c : Char} (ha : a.fits c = true) (hb : b.fits c = true) :
    a.agrees b = true := by
  cases a with
  | letter l =>
      have hl : fold c = fold l := sameLetter_iff.mp ha
      cases b with
      | letter m =>
          have hm : fold c = fold m := sameLetter_iff.mp hb
          simp [agrees, ← hl, hm]
      | digit =>
          have hc : isDecimalDigit c = true := hb
          rw [agrees, ← hl, fold_of_isDecimalDigit hc, hc]
  | digit =>
      have hc : isDecimalDigit c = true := ha
      cases b with
      | letter m =>
          have hm : fold c = fold m := sameLetter_iff.mp hb
          rw [agrees, ← hm, fold_of_isDecimalDigit hc, hc]
      | digit => rfl

/-- A slot that fits a blank admits one. -/
theorem admitsBlank_of_fits {a : Slot} {c : Char} (ha : a.fits c = true)
    (hc : isBlank c = true) : a.admitsBlank = true := by
  cases a with
  | letter l =>
      have hl : fold c = fold l := sameLetter_iff.mp ha
      rw [admitsBlank, ← hl, fold_of_isBlank hc, hc]
  | digit =>
      have hd : isDecimalDigit c = true := ha
      rw [isDecimalDigit_of_isBlank hc] at hd
      contradiction

end Slot

/-! ### Shapes -/

namespace Shape

/-- Whether two shapes agree as far as both go. -/
def agree : Shape → Shape → Bool
  | a :: s, b :: t => a.agrees b && agree s t
  | _, _ => true

/-- Two shapes that fit one text agree. -/
theorem agree_of_fits {s t : Shape} {cs : List Char} (hs : s.fits cs = true)
    (ht : t.fits cs = true) : agree s t = true := by
  induction s generalizing t cs with
  | nil => simp [agree]
  | cons a s ih =>
      cases t with
      | nil => simp [agree]
      | cons b t =>
          cases cs with
          | nil => simp [fits] at hs
          | cons c cs =>
              simp only [fits, Bool.and_eq_true] at hs ht
              simp only [agree, Bool.and_eq_true]
              exact ⟨Slot.agrees_of_fits hs.1 ht.1, ih hs.2 ht.2⟩

/-- A shape fits a text slot by slot. -/
theorem exists_cons_of_fits {a : Slot} {s : Shape} {cs : List Char}
    (h : Shape.fits (a :: s) cs = true) :
    ∃ c ds, cs = c :: ds ∧ a.fits c = true ∧ s.fits ds = true := by
  cases cs with
  | nil => simp [fits] at h
  | cons c ds =>
      simp only [fits, Bool.and_eq_true] at h
      exact ⟨c, ds, rfl, h⟩

/-- A shape is no longer than a text it fits. -/
theorem length_le_of_fits {s : Shape} {cs : List Char} (h : s.fits cs = true) :
    s.length ≤ cs.length := by
  induction s generalizing cs with
  | nil => simp
  | cons a s ih =>
      cases cs with
      | nil => simp [fits] at h
      | cons c cs =>
          simp only [fits, Bool.and_eq_true] at h
          simpa using ih h.2

/-- A shape looks at no more characters than it has slots. -/
theorem fits_append_left {s : Shape} {cs : List Char} (h : s.length ≤ cs.length)
    (ds : List Char) : s.fits (cs ++ ds) = s.fits cs := by
  induction s generalizing cs with
  | nil => simp [fits]
  | cons a s ih =>
      cases cs with
      | nil => simp at h
      | cons c cs =>
          simp only [List.length_cons, Nat.add_le_add_iff_right] at h
          simp only [List.cons_append, fits, ih h]

/-- The rest of a shape fits the rest of the text. -/
theorem fits_drop {s : Shape} {cs ds : List Char} (h : s.fits (cs ++ ds) = true) :
    Shape.fits (s.drop cs.length) ds = true := by
  induction cs generalizing s with
  | nil => simpa using h
  | cons c cs ih =>
      cases s with
      | nil => simp [fits]
      | cons a s =>
          simp only [List.cons_append, fits, Bool.and_eq_true] at h
          simpa using ih h.2

/-- The front of a shape fits where all of it does. -/
theorem fits_of_append {s t : Shape} {cs : List Char} (h : Shape.fits (s ++ t) cs = true) :
    s.fits cs = true := by
  induction s generalizing cs with
  | nil => simp [fits]
  | cons a s ih =>
      cases cs with
      | nil => simp [fits] at h
      | cons c cs =>
          simp only [List.cons_append, fits, Bool.and_eq_true] at h ⊢
          exact ⟨h.1, ih h.2⟩

/-- A shape in two parts fits a text in two parts of the same lengths if each part does. -/
theorem fits_append {s t : Shape} {cs ds : List Char} (hlen : s.length = cs.length) :
    Shape.fits (s ++ t) (cs ++ ds) = (s.fits cs && t.fits ds) := by
  induction s generalizing cs with
  | nil =>
      cases cs with
      | nil => simp [fits]
      | cons c cs => simp at hlen
  | cons a s ih =>
      cases cs with
      | nil => simp at hlen
      | cons c cs =>
          simp only [List.length_cons, Nat.add_right_cancel_iff] at hlen
          simp only [List.cons_append, fits, ih hlen, Bool.and_assoc]

/-- A shape fits a text of its length backwards, too. -/
theorem fits_reverse {s : Shape} {cs : List Char} (hlen : s.length = cs.length)
    (h : s.fits cs = true) : Shape.fits s.reverse cs.reverse = true := by
  induction s generalizing cs with
  | nil => simp [fits]
  | cons a s ih =>
      cases cs with
      | nil => simp at hlen
      | cons c cs =>
          simp only [List.length_cons, Nat.add_right_cancel_iff] at hlen
          simp only [fits, Bool.and_eq_true] at h
          have hrev : (s.reverse).length = (cs.reverse).length := by simpa using hlen
          rw [List.reverse_cons, List.reverse_cons, fits_append hrev, ih hlen h.2]
          simp [fits, h.1]

/-- Every character of a text of the length of a shape that fits it fits some slot. -/
theorem exists_slot_of_mem {s : Shape} {cs : List Char} (hlen : s.length = cs.length)
    (h : s.fits cs = true) {c : Char} (hc : c ∈ cs) : ∃ a ∈ s, a.fits c = true := by
  induction s generalizing cs with
  | nil =>
      rw [List.length_nil, eq_comm, List.length_eq_zero_iff] at hlen
      simp [hlen] at hc
  | cons a s ih =>
      obtain ⟨d, ds, rfl, hd, hds⟩ := exists_cons_of_fits h
      simp only [List.length_cons, Nat.add_right_cancel_iff] at hlen
      rcases List.mem_cons.mp hc with rfl | hc
      · exact ⟨a, by simp, hd⟩
      · obtain ⟨b, hb, hfits⟩ := ih hlen hds hc
        exact ⟨b, List.mem_cons_of_mem a hb, hfits⟩

/-- A shape none of whose slots fits `c` ends before a `c` in the text. -/
theorem length_le_of_fits_before {s : Shape} {c : Char} {cs ds : List Char}
    (hs : ∀ a ∈ s, a.fits c = false) (h : s.fits (cs ++ c :: ds) = true) :
    s.length ≤ cs.length := by
  induction s generalizing cs with
  | nil => simp
  | cons a s ih =>
      cases cs with
      | nil =>
          have ha := hs a (by simp)
          simp [fits, ha] at h
      | cons d cs =>
          simp only [List.cons_append, fits, Bool.and_eq_true] at h
          have hle := ih (fun b hb => hs b (List.mem_cons_of_mem a hb)) h.2
          simpa using hle

/-- So whether it fits does not depend on what follows the `c`. -/
theorem fits_before_congr {s : Shape} {c : Char} (hs : ∀ a ∈ s, a.fits c = false)
    (cs ds es : List Char) : s.fits (cs ++ c :: ds) = s.fits (cs ++ c :: es) := by
  by_cases hle : s.length ≤ cs.length
  · rw [fits_append_left hle, fits_append_left hle]
  · have hfalse (xs : List Char) : s.fits (cs ++ c :: xs) = false := by
      cases hx : s.fits (cs ++ c :: xs) with
      | false => rfl
      | true => exact absurd (length_le_of_fits_before hs hx) hle
    rw [hfalse ds, hfalse es]

end Shape

end ErrorQuery
