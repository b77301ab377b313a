import ErrorQuery.Proofs.Token.Takes

/-!
# Rules that overlap themselves

Looked for everywhere in a text, a rule may begin inside something it has already taken and then
goes unnoticed.  Few rules can: a quoted text, whose closing quote may open another, a number,
any part of which is a number, `not in`, whose last letter is its first, and a moment, whose last
two digits may begin a year.  The latter two leave their trace in front of the second beginning:
a blank and an `i`, or a colon with at most one digit behind it; `seams` lists them together with
what follows.  A text with none of these at its end is `Settled`, and tokens and blanks keep a text
settled.
-/

set_option autoImplicit false

namespace ErrorQuery

open Text

/-- What stands in front of the second beginning of a shape that overlaps itself. -/
def unsettledEnds : List Shape :=
  [.word " i", .word ":", .word ":" ++ .digits 1]

/-- A text that no shape overlapping itself leaves behind. -/
def Settled (before : List Char) : Prop :=
  ∀ s ∈ unsettledEnds, Shape.fits s.reverse before.reverse = false

/-- Where a shape begins anew inside itself: what stands in front of the place and what the place
begins with. -/
def seams : List (Shape × Slot) :=
  [(.word " i", .letter 'n'), (.word ":", .digit), (.word ":" ++ .digits 1, .digit)]

/-- One of the seams lies between `before` and `rest`. -/
structure AtSeam (seam : Shape × Slot) (before rest : List Char) : Prop where
  mem_seams : seam ∈ seams
  front : Shape.fits seam.1.reverse before.reverse = true
  back : Shape.fits [seam.2] rest = true

/-- What stands in front of a seam is an unsettled end. -/
theorem AtSeam.mem_unsettledEnds {seam : Shape × Slot} {before rest : List Char}
    (h : AtSeam seam before rest) : seam.1 ∈ unsettledEnds := by
  have hall : ∀ seam ∈ seams, seam.1 ∈ unsettledEnds := by decide
  exact hall seam h.mem_seams

namespace Rule

/-- No shape of the table has an unsettled end. -/
theorem agree_reverse_unsettled {rule : Rule} (h : rule ∈ table) {s u : Shape}
    (hs : s ∈ rule.pattern.alternatives) (hu : u ∈ unsettledEnds) :
    Shape.agree s.reverse u.reverse = false := by
  have hall : ∀ r ∈ table, ∀ s ∈ r.pattern.alternatives, ∀ u ∈ unsettledEnds,
      Shape.agree s.reverse u.reverse = false := by
    decide +kernel
  exact hall rule h s hs u hu

/-- A rule that begins anew inside what it has taken is one of quoted texts or of numbers, unless
two of its shapes agree from there on. -/
theorem overlap_shapes {rule : Rule} {front back rest taken rest' : List Char} (hback : back ≠ [])
    (hfirst : rule.Takes (front ++ back) rest) (hsecond : rule.Takes taken rest')
    (heq : back ++ rest = taken ++ rest') :
    (∃ s ∈ rule.pattern.alternatives, ∃ t ∈ rule.pattern.alternatives,
        front.length < s.length ∧ Shape.fits (s.take front.length) front = true ∧
        t.fits (back ++ rest) = true ∧ Shape.agree (s.drop front.length) t = true) ∨
      rule.pattern = .quoted ∨
      (rule.pattern = .digitRun ∧ ∀ c ∈ front, isDecimalDigit c = true) := by
  obtain ⟨s, hs, hsfits, hslen⟩ | ⟨hp, -⟩ | ⟨hp, -, hdigits, -⟩ := takes_cases hfirst
  · left
    obtain ⟨t, ht, htfits, htlen⟩ | ⟨hp, -⟩ | ⟨hp, -⟩ := takes_cases hsecond
    -- Both readings are shapes: what the first still has to fit and the second stand at one place,
    -- so they agree slot by slot.
    · have hk : front.length < s.length := by
        have := List.length_pos_iff.mpr hback
        rw [hslen, List.length_append]
        omega
      have hrest : Shape.fits (s.drop front.length) (back ++ rest) = true := by
        apply Shape.fits_drop
        rw [← List.append_assoc, Shape.fits_append_left (Nat.le_of_eq hslen)]
        exact hsfits
      have htrest : t.fits (back ++ rest) = true := by
        rw [heq, Shape.fits_append_left (Nat.le_of_eq htlen)]
        exact htfits
      have htake : Shape.fits (s.take front.length) front = true := by
        have hsplit : Shape.fits (s.take front.length ++ s.drop front.length) (front ++ back) =
            true := by
          rw [List.take_append_drop]
          exact hsfits
        have hfits := Shape.fits_of_append hsplit
        rwa [Shape.fits_append_left (by rw [List.length_take]; omega)] at hfits
      exact ⟨s, hs, t, ht, hk, htake, htrest, Shape.agree_of_fits hrest htrest⟩
    · rw [hp] at hs
      contradiction
    · rw [hp] at hs
      contradiction
  · exact .inr (.inl hp)
  · exact .inr (.inr ⟨hp, fun c hc => hdigits c (List.mem_append_left back hc)⟩)

/-- A shape that fits a text from its front fits its end with what the shape ends in. -/
theorem fits_reverse_of_suffix {s u : Shape} {front : List Char} (hlen : s.length = front.length)
    (hfits : s.fits front = true) (hu : u <:+ s) :
    Shape.fits u.reverse front.reverse = true := by
  obtain ⟨v, hv⟩ := hu
  have hrev := Shape.fits_reverse hlen hfits
  rw [← hv, List.reverse_append] at hrev
  exact Shape.fits_of_append hrev

/-- Two beginnings of shapes of one rule, the second inside what the first takes, have a seam
between them. -/
theorem exists_seam_of_agree {rule : Rule} (h : rule ∈ table) {s t : Shape}
    (hs : s ∈ rule.pattern.alternatives) (ht : t ∈ rule.pattern.alternatives) {k : Nat}
    (hpos : 0 < k) (hk : k < s.length) (hagree : Shape.agree (s.drop k) t = true) :
    ∃ seam ∈ seams, seam.1 <:+ s.take k ∧ t.head? = some seam.2 := by
  have hall : ∀ r ∈ table, ∀ s ∈ r.pattern.alternatives, ∀ t ∈ r.pattern.alternatives,
      ∀ k < s.length, 0 < k → Shape.agree (s.drop k) t = true →
        seams.any (fun seam => seam.1 <:+ s.take k ∧ t.head? = some seam.2) = true := by
    decide +kernel
  simpa only [List.any_eq_true, decide_eq_true_eq] using hall rule h s hs t ht k hk hpos hagree

/-- A rule of the table that begins anew inside what it has taken is one of quoted texts or of
numbers, unless it does so at a seam. -/
theorem atSeam_of_overlap {rule : Rule} (h : rule ∈ table) {front back rest taken rest' : List Char}
    (hfront : front ≠ []) (hback : back ≠ []) (hfirst : rule.Takes (front ++ back) rest)
    (hsecond : rule.Takes taken rest') (heq : back ++ rest = taken ++ rest') :
    (∃ seam, AtSeam seam front (back ++ rest)) ∨ rule.pattern = .quoted ∨
      (rule.pattern = .digitRun ∧ ∀ c ∈ front, isDecimalDigit c = true) := by
  obtain ⟨s, hs, t, ht, hk, htake, htfits, hagree⟩ | hother :=
    overlap_shapes hback hfirst hsecond heq
  · obtain ⟨seam, hseam, hsuffix, hhead⟩ :=
      exists_seam_of_agree h hs ht (List.length_pos_iff.mpr hfront) hk hagree
    have hlen : (s.take front.length).length = front.length := by
      rw [List.length_take]
      omega
    obtain ⟨u, rfl⟩ := List.head?_eq_some_iff.mp hhead
    have hback : Shape.fits [seam.2] (back ++ rest) = true :=
      @Shape.fits_of_append [seam.2] u _ htfits
    exact .inl ⟨seam, hseam, fits_reverse_of_suffix hlen htake hsuffix, hback⟩
  · exact .inr hother

/-- A rule of the table that begins anew inside what it has taken is one of quoted texts or of
numbers, unless it leaves an unsettled end. -/
theorem overlap_cases {rule : Rule} (h : rule ∈ table) {front back rest taken rest' : List Char}
    (hfront : front ≠ []) (hback : back ≠ []) (hfirst : rule.Takes (front ++ back) rest)
    (hsecond : rule.Takes taken rest') (heq : back ++ rest = taken ++ rest') :
    (∃ u ∈ unsettledEnds, Shape.fits u.reverse front.reverse = true) ∨
      rule.pattern = .quoted ∨
      (rule.pattern = .digitRun ∧ ∀ c ∈ front, isDecimalDigit c = true) := by
  obtain ⟨seam, hseam⟩ | hother := atSeam_of_overlap h hfront hback hfirst hsecond heq
  · exact .inl ⟨seam.1, hseam.mem_unsettledEnds, hseam.front⟩
  · exact .inr hother

end Rule

/-! ### Settled texts -/

namespace Settled

/-- An empty text is settled. -/
theorem nil : Settled [] := by
  unfold Settled
  decide

/-- In a settled text a shape that overlaps itself has not begun. -/
theorem fits_reverse_of_append {front before : List Char} (h : Settled (front ++ before))
    {u : Shape} (hu : u ∈ unsettledEnds) : Shape.fits u.reverse before.reverse = false := by
  cases hfits : Shape.fits u.reverse before.reverse with
  | false => rfl
  | true =>
      have hall := h u hu
      rw [List.reverse_append, Shape.fits_append_left (Shape.length_le_of_fits hfits), hfits] at hall
      contradiction

/-- A character that no unsettled end has last keeps the text settled. -/
theorem concat {before : List Char} {c : Char}
    (hc : ∀ u ∈ unsettledEnds, ∀ a ∈ u.reverse.head?, a.fits c = false) :
    Settled (before ++ [c]) := by
  intro u hu
  have hlast := hc u hu
  simp only [unsettledEnds, List.mem_cons, List.not_mem_nil, or_false] at hu
  rw [List.reverse_append, List.reverse_singleton, List.singleton_append]
  obtain ⟨a, t, hat⟩ : ∃ a t, u.reverse = a :: t := by
    rcases hu with rfl | rfl | rfl <;> exact ⟨_, _, rfl⟩
  have hfalse := hlast a (by simp [hat])
  simp [hat, Shape.fits, hfalse]

/-- A text is settled behind a blank. -/
theorem blank {before : List Char} {c : Char} (hc : isBlank c = true) : Settled (before ++ [c]) := by
  apply concat
  intro u hu a ha
  have hall : ∀ u ∈ unsettledEnds, ∀ a ∈ u.reverse.head?, a.admitsBlank = false := by
    decide
  cases hfits : a.fits c with
  | false => rfl
  | true =>
      have hblank := Slot.admitsBlank_of_fits hfits hc
      rw [hall u hu a ha] at hblank
      contradiction

/-- A digit keeps a settled text settled: no colon stands in front of it. -/
theorem digit {before : List Char} (h : Settled before) {d : Char}
    (hd : isDecimalDigit d = true) : Settled (before ++ [d]) := by
  have hcolon := h (.word ":") (by decide)
  have hfits (l : Char) (hl : isDecimalDigit (fold l) = false) : (Slot.letter l).fits d = false := by
    cases hl' : (Slot.letter l).fits d with
    | false => rfl
    | true =>
        have hagree : (Slot.letter l).agrees .digit = true := Slot.agrees_of_fits hl' hd
        rw [Slot.agrees, hl] at hagree
        contradiction
  intro u hu
  rw [List.reverse_append, List.reverse_singleton, List.singleton_append]
  simp only [unsettledEnds, List.mem_cons, List.not_mem_nil, or_false] at hu
  rcases hu with rfl | rfl | rfl
  · have hi := hfits 'i' (by decide)
    simp [Shape.word, Shape.fits, hi]
  · have hc := hfits ':' (by decide)
    simp [Shape.word, Shape.fits, hc]
  · simp only [Shape.word, Shape.digits] at hcolon ⊢
    simpa [Shape.fits] using fun _ => hcolon

/-- A settled text stays settled behind digits. -/
theorem digits {before run : List Char} (h : Settled before)
    (hrun : ∀ c ∈ run, isDecimalDigit c = true) : Settled (before ++ run) := by
  induction run generalizing before with
  | nil => simpa using h
  | cons c run ih =>
      have hc := h.digit (hrun c (by simp))
      have hrest := ih hc (fun d hd => hrun d (List.mem_cons_of_mem c hd))
      simpa using hrest

/-- What a rule of the table takes keeps a settled text settled. -/
theorem takes {before taken rest : List Char} (h : Settled before) {rule : Rule}
    (hrule : rule ∈ Rule.table) (ht : rule.Takes taken rest) : Settled (before ++ taken) := by
  obtain ⟨s, hs, hfits, hlen⟩ | ⟨-, inside, rfl, -⟩ | ⟨-, -, hdigits, -⟩ := Rule.takes_cases ht
  · intro u hu
    have hrev : Shape.fits s.reverse (before ++ taken).reverse = true := by
      rw [List.reverse_append, Shape.fits_append_left (by simp [hlen])]
      exact Shape.fits_reverse hlen hfits
    cases hufits : Shape.fits u.reverse (before ++ taken).reverse with
    | false => rfl
    | true =>
        have hagree := Shape.agree_of_fits hrev hufits
        rw [Rule.agree_reverse_unsettled hrule hs hu] at hagree
        contradiction
  · rw [← List.cons_append, ← List.append_assoc]
    apply concat
    decide
  · exact h.digits hdigits

end Settled

end ErrorQuery
