import ErrorQuery.Proofs.Token.Shapes
import ErrorQuery.Token.Rule

/-!
# What a rule takes from a text

`Rule.Takes rule taken rest` says that a rule takes exactly the characters `taken` where they are
followed by `rest`.  `Rule.takes_cases` opens it for the rules of the table: a rule made of shapes
takes a text that one of its shapes fits in full, the rule of quoted texts takes two quotes with
no quote between them, and the rule of numbers takes a run of digits that no digit follows.
-/

set_option autoImplicit false

namespace ErrorQuery

open Text

/-! ### Widths -/

namespace Pattern

/-- The shapes that a pattern chooses from. -/
def alternatives : Pattern → List Shape
  | .shapes alternatives => alternatives
  | .quoted => []
  | .digitRun => []

/-- A pattern of shapes takes what one of them fits. -/
theorem exists_of_width?_shapes {shapes : List Shape} {cs : List Char} {w : Nat}
    (h : (Pattern.shapes shapes).width? cs = some w) :
    ∃ s ∈ shapes, s.fits cs = true ∧ s.length = w := by
  simp only [width?, Option.map_eq_some_iff] at h
  obtain ⟨s, hs, hw⟩ := h
  have hfit := List.find?_some hs
  exact ⟨s, List.mem_of_find?_eq_some hs, hfit, hw⟩

/-- A pattern of shapes takes nothing exactly where none of them fits. -/
theorem width?_shapes_eq_none_iff {shapes : List Shape} {cs : List Char} :
    (Pattern.shapes shapes).width? cs = none ↔ ∀ s ∈ shapes, s.fits cs = false := by
  simp [width?]

/-- The quoted pattern takes two quotes and what stands between them. -/
theorem width?_quoted {inside : List Char} (h : ∀ c ∈ inside, c ≠ '\'') (rest : List Char) :
    Pattern.quoted.width? ('\'' :: (inside ++ '\'' :: rest)) = some (inside.length + 2) := by
  have htake : (inside ++ '\'' :: rest).takeWhile isUnquoted = inside := by
    rw [List.takeWhile_append_of_pos (fun c hc => by simpa [isUnquoted] using h c hc)]
    simp [isUnquoted]
  simp only [width?, htake, List.length_append, List.length_cons]
  rw [if_pos (by omega)]

/-- Nothing else has a width in the quoted pattern. -/
theorem exists_of_width?_quoted {cs : List Char} {w : Nat} (h : Pattern.quoted.width? cs = some w) :
    ∃ inside rest, cs = '\'' :: (inside ++ '\'' :: rest) ∧ (∀ c ∈ inside, c ≠ '\'') ∧
      w = inside.length + 2 := by
  obtain ⟨cs, rfl⟩ : ∃ ds, cs = '\'' :: ds := by
    unfold width? at h
    split at h
    · contradiction
    · exact ⟨_, rfl⟩
    · contradiction
    · contradiction
  simp only [width?, Option.ite_none_right_eq_some, Option.some.injEq] at h
  obtain ⟨hlt, rfl⟩ := h
  have hsplit := List.takeWhile_append_dropWhile (p := isUnquoted) (l := cs)
  cases hd : cs.dropWhile isUnquoted with
  | nil =>
      rw [hd, List.append_nil] at hsplit
      rw [hsplit] at hlt
      omega
  | cons q rest =>
      have hq : isUnquoted q = false := by
        have hhead := List.head?_dropWhile_not isUnquoted cs
        rw [hd] at hhead
        simpa using hhead
      have hquote : q = '\'' := by simpa [isUnquoted] using hq
      rw [hd, hquote] at hsplit
      refine ⟨cs.takeWhile isUnquoted, rest, by rw [hsplit], ?_, rfl⟩
      intro c hc
      have hall := List.all_takeWhile (p := isUnquoted) (l := cs)
      rw [List.all_eq_true] at hall
      simpa [isUnquoted] using hall c hc

/-- The pattern of numbers takes a run of digits that no digit follows. -/
theorem width?_digitRun {run rest : List Char} (hne : run ≠ [])
    (hrun : ∀ c ∈ run, isDecimalDigit c = true)
    (hrest : startsWithDigit rest = false) :
    Pattern.digitRun.width? (run ++ rest) = some run.length := by
  have htake : (run ++ rest).takeWhile isDecimalDigit = run := by
    rw [List.takeWhile_append_of_pos hrun]
    cases rest with
    | nil => simp
    | cons c rest =>
        rw [startsWithDigit_cons] at hrest
        simp [hrest]
  simp [width?, htake, hne]

/-- Nothing else has a width in the pattern of numbers. -/
theorem exists_of_width?_digitRun {cs : List Char} {w : Nat}
    (h : Pattern.digitRun.width? cs = some w) :
    ∃ run rest, cs = run ++ rest ∧ run ≠ [] ∧ (∀ c ∈ run, isDecimalDigit c = true) ∧
      startsWithDigit rest = false ∧ w = run.length := by
  simp only [width?] at h
  split at h
  · contradiction
  · rename_i hne
    refine ⟨cs.takeWhile isDecimalDigit, cs.dropWhile isDecimalDigit,
      List.takeWhile_append_dropWhile.symm, by simpa using hne, ?_, ?_, (Option.some.inj h).symm⟩
    · intro c hc
      have hall := List.all_takeWhile (p := isDecimalDigit) (l := cs)
      rw [List.all_eq_true] at hall
      exact hall c hc
    · have hhead := List.head?_dropWhile_not isDecimalDigit cs
      cases hd : cs.dropWhile isDecimalDigit with
      | nil => rfl
      | cons d ds =>
          rw [hd] at hhead
          simpa using hhead

/-- A pattern takes no more than there is. -/
theorem width?_le {p : Pattern} {cs : List Char} {w : Nat} (h : p.width? cs = some w) :
    w ≤ cs.length := by
  cases p with
  | shapes shapes =>
      obtain ⟨s, -, hs, rfl⟩ := exists_of_width?_shapes h
      exact Shape.length_le_of_fits hs
  | quoted =>
      obtain ⟨inside, rest, rfl, -, rfl⟩ := exists_of_width?_quoted h
      simp only [List.length_cons, List.length_append]
      omega
  | digitRun =>
      obtain ⟨run, rest, rfl, -, -, -, rfl⟩ := exists_of_width?_digitRun h
      simp

end Pattern

/-! ### Rules -/

namespace Rule

/-- The token that a rule makes of characters which begin at the given byte. -/
def token (rule : Rule) (position : Nat) (taken : List Char) : Token :=
  ⟨rule.kind, String.ofList (rule.pattern.value taken), ⟨position, position + byteLength taken⟩⟩

/-- The rule takes exactly `taken` where `rest` follows. -/
def Takes (rule : Rule) (taken rest : List Char) : Prop :=
  rule.pattern.width? (taken ++ rest) = some taken.length

/-- The token of a rule is made of what the rule takes. -/
theorem tokenAt?_of_takes {rule : Rule} {taken rest : List Char} (h : rule.Takes taken rest)
    (position : Nat) : rule.tokenAt? position (taken ++ rest) = some (rule.token position taken) := by
  have hwidth : rule.pattern.width? (taken ++ rest) = some taken.length := h
  simp [tokenAt?, token, hwidth]

/-- Every token of a rule is made of what the rule takes. -/
theorem exists_takes_of_tokenAt? {rule : Rule} {position : Nat} {cs : List Char} {token : Token}
    (h : rule.tokenAt? position cs = some token) :
    ∃ taken rest, cs = taken ++ rest ∧ rule.Takes taken rest ∧
      token = rule.token position taken := by
  simp only [tokenAt?, Option.map_eq_some_iff] at h
  obtain ⟨w, hw, rfl⟩ := h
  have hlen : (cs.take w).length = w := by
    have hle := Pattern.width?_le hw
    simp [hle]
  refine ⟨cs.take w, cs.drop w, (List.take_append_drop w cs).symm, ?_, rfl⟩
  rw [Takes, List.take_append_drop, hlen]
  exact hw

/-- A rule has no token exactly where its pattern takes nothing. -/
theorem tokenAt?_eq_none_iff {rule : Rule} {position : Nat} {cs : List Char} :
    rule.tokenAt? position cs = none ↔ rule.pattern.width? cs = none := by
  simp [tokenAt?]

/-- The three ways in which a rule takes something. -/
theorem takes_cases {rule : Rule} {taken rest : List Char} (h : rule.Takes taken rest) :
    (∃ s ∈ rule.pattern.alternatives, s.fits taken = true ∧ s.length = taken.length) ∨
      (rule.pattern = .quoted ∧
        ∃ inside, taken = '\'' :: (inside ++ ['\'']) ∧ ∀ c ∈ inside, c ≠ '\'') ∨
      (rule.pattern = .digitRun ∧ taken ≠ [] ∧ (∀ c ∈ taken, isDecimalDigit c = true) ∧
        startsWithDigit rest = false) := by
  rw [Takes] at h
  cases hp : rule.pattern with
  | shapes shapes =>
      rw [hp] at h
      obtain ⟨s, hs, hfits, hlen⟩ := Pattern.exists_of_width?_shapes h
      refine .inl ⟨s, hs, ?_, hlen⟩
      rwa [Shape.fits_append_left (Nat.le_of_eq hlen)] at hfits
  | quoted =>
      rw [hp] at h
      obtain ⟨inside, rest', heq, hinside, hlen⟩ := Pattern.exists_of_width?_quoted h
      refine .inr (.inl ⟨rfl, inside, ?_, hinside⟩)
      have heq' : taken ++ rest = ('\'' :: (inside ++ ['\''])) ++ rest' := by simpa using heq
      exact (List.append_inj heq' (by simp [hlen])).1
  | digitRun =>
      rw [hp] at h
      obtain ⟨run, rest', heq, hne, hrun, hrest, hlen⟩ := Pattern.exists_of_width?_digitRun h
      obtain ⟨rfl, rfl⟩ := List.append_inj heq hlen
      exact .inr (.inr ⟨rfl, hne, hrun, hrest⟩)

/-- The rule of numbers takes a whole run of digits. -/
theorem Takes.digits {rule : Rule} (hp : rule.pattern = .digitRun) {taken rest : List Char}
    (h : rule.Takes taken rest) :
    (∀ c ∈ taken, isDecimalDigit c = true) ∧ startsWithDigit rest = false := by
  obtain ⟨s, hs, -⟩ | ⟨hq, -⟩ | ⟨-, -, hdigits, hrest⟩ := takes_cases h
  · rw [hp] at hs
    contradiction
  · rw [hp] at hq
    contradiction
  · exact ⟨hdigits, hrest⟩

/-- The rule of quoted texts takes a text without quotes and the quotes around it. -/
theorem Takes.quoted {rule : Rule} (hp : rule.pattern = .quoted) {taken rest : List Char}
    (h : rule.Takes taken rest) :
    ∃ inside, taken = '\'' :: (inside ++ ['\'']) ∧ ∀ c ∈ inside, c ≠ '\'' := by
  obtain ⟨s, hs, -⟩ | ⟨-, hquoted⟩ | ⟨hdigits, -⟩ := takes_cases h
  · rw [hp] at hs
    contradiction
  · exact hquoted
  · rw [hp] at hdigits
    contradiction

/-! ### The table -/

/-- Only texts are quoted, only numbers are runs of digits, and only moments are timestamps. -/
theorem pattern_iff_kind {rule : Rule} (h : rule ∈ table) :
    (rule.pattern = .quoted ↔ rule.kind = .text) ∧
      (rule.pattern = .digitRun ↔ rule.kind = .number) ∧
      (rule.pattern = .timestamp ↔ rule.kind = .dateTime) := by
  revert rule
  decide

/-- No rule of the table begins with a blank, and no shape of it is empty. -/
theorem shape_ne_nil {rule : Rule} (h : rule ∈ table) {s : Shape}
    (hs : s ∈ rule.pattern.alternatives) : ∃ a t, s = a :: t ∧ a.admitsBlank = false := by
  have hall : ∀ r ∈ table, ∀ s ∈ r.pattern.alternatives,
      s.head?.any (fun a => !a.admitsBlank) = true := by
    decide
  have hhead := hall rule h s hs
  cases s with
  | nil => simp at hhead
  | cons a t => exact ⟨a, t, rfl, by simpa using hhead⟩

/-- No slot of the table fits a quote. -/
theorem slot_fits_quote {rule : Rule} (h : rule ∈ table) {s : Shape}
    (hs : s ∈ rule.pattern.alternatives) {a : Slot} (ha : a ∈ s) : a.fits '\'' = false := by
  have hall : ∀ r ∈ table, ∀ s ∈ r.pattern.alternatives, ∀ a ∈ s, a.fits '\'' = false := by
    decide
  exact hall rule h s hs a ha

/-- Only a quoted text contains quotes. -/
theorem Takes.ne_quote {rule : Rule} (h : rule ∈ table) (hp : rule.pattern ≠ .quoted)
    {taken rest : List Char} (ht : rule.Takes taken rest) : ∀ c ∈ taken, c ≠ '\'' := by
  rintro c hc rfl
  obtain ⟨s, hs, hfits, hlen⟩ | ⟨hquoted, -⟩ | ⟨-, -, hdigits, -⟩ := takes_cases ht
  · obtain ⟨a, ha, hquote⟩ := Shape.exists_slot_of_mem hlen hfits hc
    rw [slot_fits_quote h hs ha] at hquote
    contradiction
  · exact hp hquoted
  · have hdigit := hdigits _ hc
    revert hdigit
    decide

/-- What a rule of the table takes begins with a character that is not blank. -/
theorem Takes.exists_cons {rule : Rule} (h : rule ∈ table) {taken rest : List Char}
    (ht : rule.Takes taken rest) : ∃ c cs, taken = c :: cs ∧ isBlank c = false := by
  obtain ⟨s, hs, hfits, hlen⟩ | ⟨-, inside, rfl, -⟩ | ⟨-, hne, hdigits, -⟩ := takes_cases ht
  · obtain ⟨a, t, rfl, ha⟩ := shape_ne_nil h hs
    cases taken with
    | nil => simp at hlen
    | cons c cs =>
        refine ⟨c, cs, rfl, ?_⟩
        simp only [Shape.fits, Bool.and_eq_true] at hfits
        cases hc : isBlank c with
        | false => rfl
        | true =>
            have hblank := Slot.admitsBlank_of_fits hfits.1 hc
            rw [ha] at hblank
            contradiction
  · exact ⟨'\'', inside ++ ['\''], rfl, by decide⟩
  · obtain ⟨c, cs, rfl⟩ := List.exists_cons_of_ne_nil hne
    refine ⟨c, cs, rfl, ?_⟩
    have hdigit := hdigits c (by simp)
    cases hc : isBlank c with
    | false => rfl
    | true =>
        rw [isDecimalDigit_of_isBlank hc] at hdigit
        contradiction

/-- What the rule of numbers takes starts with a digit. -/
theorem Takes.startsWithDigit {rule : Rule} (h : rule ∈ table) (hp : rule.pattern = .digitRun)
    {taken rest : List Char} (ht : rule.Takes taken rest) :
    Text.startsWithDigit (taken ++ rest) = true := by
  obtain ⟨c, cs, rfl, -⟩ := ht.exists_cons h
  exact (ht.digits hp).1 c (by simp)

/-- At a blank no rule of the table takes anything. -/
theorem width?_of_blank {rule : Rule} (h : rule ∈ table) {c : Char} (hc : isBlank c = true)
    (cs : List Char) : rule.pattern.width? (c :: cs) = none := by
  cases htoken : rule.tokenAt? 0 (c :: cs) with
  | none => exact tokenAt?_eq_none_iff.mp htoken
  | some token =>
      obtain ⟨taken, rest, heq, ht, -⟩ := exists_takes_of_tokenAt? htoken
      obtain ⟨d, ds, rfl, hd⟩ := ht.exists_cons h
      obtain ⟨rfl, -⟩ := List.cons.inj heq
      rw [hd] at hc
      contradiction

end Rule

end ErrorQuery
