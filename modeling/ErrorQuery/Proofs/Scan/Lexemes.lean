import ErrorQuery.Proofs.Scan.Literal

/-!
# Lexemes in front of a blank

The rules know no word boundaries, so what a rule takes in full could still be part of something
longer, or a rule that is tried earlier could take a part of it.  In front of a blank, or at the
end of a text, neither happens: a rule that takes all of a text leads there
(`Rule.leads_of_takes`).  For the rules made of shapes this is decided on the shapes: of two shapes
that agree the earlier one goes on with a slot that no blank fits.
-/

set_option autoImplicit false

namespace ErrorQuery

open Text

/-- The shape does not fit where the other one fits in full and a blank or nothing follows. -/
def Shape.clearOf (s t : Shape) : Bool :=
  !agree s t || (s.drop t.length).head?.any fun a => !a.admitsBlank

/-- A shape that is clear of another does not fit where the other does before a blank or the end. -/
theorem Shape.fits_of_clearOf {s t : Shape} (h : s.clearOf t = true) {taken rest : List Char}
    (hfits : t.fits taken = true) (hlen : t.length = taken.length)
    (hrest : ∀ c ∈ rest.head?, isBlank c = true) : s.fits (taken ++ rest) = false := by
  cases hs : s.fits (taken ++ rest) with
  | false => rfl
  | true =>
      exfalso
      have ht : t.fits (taken ++ rest) = true := by
        rw [fits_append_left (Nat.le_of_eq hlen)]
        exact hfits
      have hagree := agree_of_fits hs ht
      have hbehind := fits_drop hs
      rw [clearOf, hagree, Bool.not_true, Bool.false_or, hlen] at h
      -- the slot behind `taken` would have to fit a blank or nothing
      cases hdrop : s.drop taken.length with
      | nil =>
          rw [hdrop] at h
          contradiction
      | cons a u =>
          rw [hdrop] at h hbehind
          obtain ⟨c, cs, rfl, hc, -⟩ := exists_cons_of_fits hbehind
          have hblank := Slot.admitsBlank_of_fits hc (hrest c rfl)
          simp [hblank] at h

namespace Rule

/-- Every shape of the table is clear of those behind it. -/
theorem pairwise_clearOf :
    (table.flatMap (·.pattern.alternatives)).Pairwise (fun s t => s.clearOf t = true) := by
  decide

/-- The rule of numbers is the last one. -/
theorem pairwise_ne_digitRun : table.Pairwise (fun r _ => r.pattern ≠ .digitRun) := by
  decide

/-- The shapes of earlier rules are clear of those of later ones. -/
theorem clearOf_of_earlier {earlier later : List Rule} {rule : Rule}
    (htable : table = earlier ++ rule :: later) {r : Rule} (hr : r ∈ earlier) {s t : Shape}
    (hs : s ∈ r.pattern.alternatives) (ht : t ∈ rule.pattern.alternatives) :
    s.clearOf t = true := by
  have hpairs := pairwise_clearOf
  rw [htable, List.flatMap_append, List.flatMap_cons, List.pairwise_append] at hpairs
  exact hpairs.2.2 s (List.mem_flatMap.mpr ⟨r, hr, hs⟩) t (List.mem_append_left _ ht)

/-- No rule before another one is that of numbers. -/
theorem ne_digitRun_of_earlier {earlier later : List Rule} {rule : Rule}
    (htable : table = earlier ++ rule :: later) {r : Rule} (hr : r ∈ earlier) :
    r.pattern ≠ .digitRun := by
  have hpairs := pairwise_ne_digitRun
  rw [htable, List.pairwise_append] at hpairs
  exact hpairs.2.2 r hr rule (by simp)

/-- The earlier shapes of a rule are clear of the later ones. -/
theorem pairwise_alternatives {rule : Rule} (hrule : rule ∈ table) :
    rule.pattern.alternatives.Pairwise (fun s t => s.clearOf t = true) := by
  obtain ⟨earlier, later, htable⟩ := List.append_of_mem hrule
  have hpairs := pairwise_clearOf
  rw [htable, List.flatMap_append, List.flatMap_cons, List.pairwise_append,
    List.pairwise_append] at hpairs
  exact hpairs.2.1.1

/-- A rule takes what one of its shapes fits in full in front of a blank. -/
theorem takes_of_fits {rule : Rule} (hrule : rule ∈ table) {t : Shape}
    (ht : t ∈ rule.pattern.alternatives) {taken rest : List Char} (hfits : t.fits taken = true)
    (hlen : t.length = taken.length) (hrest : ∀ c ∈ rest.head?, isBlank c = true) :
    rule.Takes taken rest := by
  have hpairs := pairwise_alternatives hrule
  unfold Takes
  cases hp : rule.pattern with
  | quoted =>
      rw [hp] at ht
      contradiction
  | digitRun =>
      rw [hp] at ht
      contradiction
  | shapes alternatives =>
      rw [hp] at ht hpairs
      obtain ⟨before, after, hsplit⟩ := List.append_of_mem ht
      have hfind : alternatives.find? (fun s => s.fits (taken ++ rest)) = some t := by
        rw [List.find?_eq_some_iff_append]
        refine ⟨?_, before, after, hsplit, ?_⟩
        · rw [Shape.fits_append_left (Nat.le_of_eq hlen)]
          exact hfits
        · intro s hs
          have hclear : s.clearOf t = true := by
            have hall : (before ++ t :: after).Pairwise (fun s t => s.clearOf t = true) :=
              hsplit ▸ hpairs
            exact (List.pairwise_append.mp hall).2.2 s hs t (by simp)
          rw [Shape.fits_of_clearOf hclear hfits hlen hrest]
          rfl
      simp only [Pattern.width?, hfind, Option.map_some, hlen]

/-- A rule leads where one of its shapes fits in full before a blank or the end. -/
theorem leads_of_fits {rule : Rule} (hrule : rule ∈ table) {t : Shape}
    (ht : t ∈ rule.pattern.alternatives) {taken rest : List Char} (hfits : t.fits taken = true)
    (hlen : t.length = taken.length) (hrest : ∀ c ∈ rest.head?, isBlank c = true) :
    rule.Leads taken rest := by
  obtain ⟨earlier, later, htable⟩ := List.append_of_mem hrule
  have htakes : rule.Takes taken rest := takes_of_fits hrule ht hfits hlen hrest
  refine ⟨earlier, later, htable, htakes, fun r hr => ?_⟩
  cases hrp : r.pattern with
  | shapes alternatives =>
      rw [Pattern.width?_shapes_eq_none_iff]
      intro s hs
      refine Shape.fits_of_clearOf (clearOf_of_earlier htable hr ?_ ht) hfits hlen hrest
      rw [hrp]
      exact hs
  | quoted =>
      -- what shapes take does not begin with a quote
      have hquoted : rule.pattern ≠ .quoted := by
        intro hp
        rw [hp] at ht
        contradiction
      obtain ⟨c, cs, rfl, -⟩ := htakes.exists_cons hrule
      have hc := htakes.ne_quote hrule hquoted c (by simp)
      have hnone := width?_eq_none_of_ne_quote hrp hc (cs ++ rest)
      rwa [hrp] at hnone
  | digitRun => exact absurd hrp (ne_digitRun_of_earlier htable hr)

/-- The rule of numbers leads on digits before a blank or the end. -/
theorem leads_of_digits {rule : Rule} (hrule : rule ∈ table) (hp : rule.pattern = .digitRun)
    {taken rest : List Char} (hne : taken ≠ []) (hdigits : ∀ c ∈ taken, isDecimalDigit c = true)
    (hrest : ∀ c ∈ rest.head?, isBlank c = true) : rule.Leads taken rest := by
  obtain ⟨earlier, later, htable⟩ := List.append_of_mem hrule
  have hstop : startsWithDigit rest = false := by
    cases rest with
    | nil => rfl
    | cons c rest => exact isDecimalDigit_of_isBlank (hrest c rfl)
  have hdash : ∀ c ∈ rest.head?, (Slot.letter '-').fits c = false := by
    intro c hc
    cases hfits : (Slot.letter '-').fits c with
    | false => rfl
    | true =>
        have hadmits := Slot.admitsBlank_of_fits hfits (hrest c hc)
        revert hadmits
        decide
  refine ⟨earlier, later, htable, ?_, fun r hr => ?_⟩
  · unfold Takes
    rw [hp]
    exact Pattern.width?_digitRun hne hdigits hstop
  · have hr' : r ∈ table := by
      rw [htable]
      exact List.mem_append_left _ hr
    exact width?_of_run hr' (ne_digitRun_of_earlier htable hr) hne hdigits hstop hdash

/-- In front of a blank or at the end a rule that takes all of a text leads. -/
theorem leads_of_takes {rule : Rule} (hrule : rule ∈ table) {taken rest : List Char}
    (ht : rule.Takes taken []) (hrest : ∀ c ∈ rest.head?, isBlank c = true) :
    rule.Leads taken rest := by
  obtain ⟨t, hshape, hfits, hlen⟩ | ⟨hp, inside, rfl, hinside⟩ | ⟨hp, hne, hdigits, -⟩ :=
    takes_cases ht
  · exact leads_of_fits hrule hshape hfits hlen hrest
  · rw [eq_quotedText hrule hp]
    exact leads_quotedText hinside rest
  · exact leads_of_digits hrule hp hne hdigits hrest

end Rule

end ErrorQuery
