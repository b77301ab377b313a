import ErrorQuery.Proofs.Scan.Tiling
import ErrorQuery.Proofs.Token.Overlap
import Mathlib.Data.List.Induction

/-!
# Where a cursor stands free

`Rule.cursor rule before rest` is the cursor of a rule after it has walked over `before` in front
of `rest`.  It is free there, or it is taken up by something the rule took that began in `before`
and reaches into `rest` (`Rule.cursor_cases`).  A rule that takes something at a place where its
cursor is not free overlaps itself, so behind a settled text only quoted texts and numbers can be
missed (`Rule.blocked_cases`).  A number is missed exactly behind a digit.
-/

set_option autoImplicit false

namespace ErrorQuery

open Text

/-! ### One step of a cursor -/

namespace Cursor

/-- A cursor that is not free stays as it is. -/
theorem pass_of_lt {cursor : Cursor} {position : Nat} (h : position < cursor.free)
    (cs : List Char) : cursor.pass position cs = cursor := by
  have hfree : ¬ cursor.free ≤ position := by omega
  simp [pass, hit?, hfree]

/-- A cursor stays as it is where its rule takes nothing. -/
theorem pass_of_width?_eq_none {cursor : Cursor} {cs : List Char}
    (h : cursor.rule.pattern.width? cs = none) (position : Nat) :
    cursor.pass position cs = cursor := by
  simp [pass, hit?, Rule.tokenAt?_eq_none_iff.mpr h]

/-- A free cursor is free again at the end of what its rule takes. -/
theorem pass_of_takes {cursor : Cursor} {position : Nat} {taken rest : List Char}
    (hfree : cursor.free ≤ position) (h : cursor.rule.Takes taken rest) :
    cursor.pass position (taken ++ rest) = ⟨cursor.rule, position + byteLength taken⟩ := by
  simp [pass, hit?, hfree, Rule.tokenAt?_of_takes h, Rule.token]

/-- A cursor keeps its rule. -/
@[simp] theorem rule_pass (cursor : Cursor) (position : Nat) (cs : List Char) :
    (cursor.pass position cs).rule = cursor.rule := by
  rw [pass]
  split <;> rfl

/-- A cursor keeps its rule along a text. -/
@[simp] theorem rule_after (cursor : Cursor) (position : Nat) (before rest : List Char) :
    (scanner.after cursor position before rest).rule = cursor.rule := by
  induction before generalizing cursor position with
  | nil => rfl
  | cons c before ih =>
      rw [Scanner.after, ih]
      exact rule_pass cursor position _

end Cursor

/-! ### The cursor of a rule along a text -/

namespace Rule

/-- The cursor of a rule that has walked over `before` in front of `rest`. -/
def cursor (rule : Rule) (before rest : List Char) : Cursor :=
  Cursor.scanner.after ⟨rule, 0⟩ 0 before rest

/-- The cursor of a rule looks for that rule. -/
@[simp] theorem rule_cursor (rule : Rule) (before rest : List Char) :
    (rule.cursor before rest).rule = rule :=
  Cursor.rule_after _ _ _ _

/-- A cursor meets nothing where its rule takes nothing. -/
theorem hit?_cursor_of_none {rule : Rule} {cs : List Char} (h : rule.pattern.width? cs = none)
    (before : List Char) (position : Nat) : (rule.cursor before cs).hit? position cs = none := by
  rw [Cursor.hit?, rule_cursor, tokenAt?_eq_none_iff.mpr h, ite_self]

/-- The cursor behind a further character has passed it. -/
theorem cursor_concat (rule : Rule) (before : List Char) (c : Char) (rest : List Char) :
    rule.cursor (before ++ [c]) rest =
      (rule.cursor before (c :: rest)).pass (byteLength before) (c :: rest) := by
  rw [cursor, Scanner.after_concat, Nat.zero_add]
  rfl

/-- A cursor that is not free is taken up by something that reaches past the place. -/
theorem cursor_cases (rule : Rule) (before rest : List Char) :
    (rule.cursor before rest).free ≤ byteLength before ∨
      ∃ earlier front back rest', before = earlier ++ front ∧ rest = back ++ rest' ∧
        front ≠ [] ∧ back ≠ [] ∧ rule.Takes (front ++ back) rest' ∧
        (rule.cursor before rest).free = byteLength earlier + byteLength (front ++ back) := by
  induction before using List.reverseRecOn generalizing rest with
  | nil => exact .inl (Nat.le_refl 0)
  | append_singleton before c ih =>
      rw [cursor_concat, byteLength_append]
      obtain hfree | ⟨earlier, front, back, rest', rfl, hrest, hfront, hback, ht, hfree⟩ :=
        ih (c :: rest)
      · -- the cursor is free at `c`: it stays so, or what it takes there reaches past `c`
        cases hwidth : rule.pattern.width? (c :: rest) with
        | none =>
            rw [Cursor.pass_of_width?_eq_none (by simpa using hwidth)]
            exact .inl (by omega)
        | some w =>
            have htoken : (rule.tokenAt? (byteLength before) (c :: rest)).isSome := by
              simp [tokenAt?, hwidth]
            obtain ⟨token, htoken⟩ := Option.isSome_iff_exists.mp htoken
            obtain ⟨taken, rest', htext, ht, -⟩ := exists_takes_of_tokenAt? htoken
            rw [htext, Cursor.pass_of_takes (by simpa [htext] using hfree) (by simpa using ht)]
            cases taken with
            | nil => exact .inl (by simp)
            | cons d taken =>
                obtain ⟨rfl, rfl⟩ := List.cons.inj htext
                cases taken with
                | nil => exact .inl (by simp)
                | cons e taken =>
                    refine .inr ⟨before, [c], e :: taken, rest', rfl, rfl, by simp, by simp, ht, ?_⟩
                    simp
      · -- the cursor is not free at `c`: what it has taken ends behind `c` or reaches past it
        have hlt : byteLength (earlier ++ front) < (rule.cursor (earlier ++ front) (c :: rest)).free := by
          have hpos : byteLength back ≠ 0 := by simpa [byteLength_eq_zero] using hback
          rw [hfree, byteLength_append, byteLength_append]
          omega
        rw [Cursor.pass_of_lt hlt, hfree]
        cases back with
        | nil => contradiction
        | cons d back =>
            obtain ⟨rfl, rfl⟩ := List.cons.inj hrest
            cases back with
            | nil =>
                left
                simp only [byteLength_append]
                omega
            | cons e back =>
                refine .inr ⟨earlier, front ++ [c], e :: back, rest', by simp, rfl, by simp, by simp,
                  by simpa using ht, by simp⟩

/-- Behind a settled text only quoted texts and numbers are missed. -/
theorem blocked_cases {rule : Rule} (hrule : rule ∈ table) {before taken rest : List Char}
    (hsettled : Settled before) (ht : rule.Takes taken rest)
    (hblocked : byteLength before < (rule.cursor before (taken ++ rest)).free) :
    rule.pattern = .quoted ∨
      (rule.pattern = .digitRun ∧ endsInDigit before = true) := by
  obtain hfree | ⟨earlier, front, back, rest', rfl, heq, hfront, hback, hfirst, -⟩ :=
    cursor_cases rule before (taken ++ rest)
  · omega
  · obtain ⟨u, hu, hfits⟩ | hquoted | ⟨hdigit, hdigits⟩ :=
      overlap_cases hrule hfront hback hfirst ht heq.symm
    · rw [hsettled.fits_reverse_of_append hu] at hfits
      contradiction
    · exact .inl hquoted
    · rw [endsInDigit_append earlier hfront]
      exact .inr ⟨hdigit, endsInDigit_of_all hfront hdigits⟩

/-- A free cursor whose rule takes something is free again behind it. -/
theorem cursor_of_takes {rule : Rule} {before taken rest : List Char}
    (hfree : (rule.cursor before (taken ++ rest)).free ≤ byteLength before)
    (ht : rule.Takes taken rest) (hne : taken ≠ []) :
    rule.cursor (before ++ taken) rest = ⟨rule, byteLength before + byteLength taken⟩ := by
  obtain ⟨c, cs, rfl⟩ := List.exists_cons_of_ne_nil hne
  -- after the first character the cursor is taken up to the end of `c :: cs`
  suffices hstay : ∀ front back, c :: cs = front ++ back → front ≠ [] →
      rule.cursor (before ++ front) (back ++ rest) =
        ⟨rule, byteLength before + byteLength (c :: cs)⟩ by
    simpa using hstay (c :: cs) [] (by simp) (by simp)
  intro front
  induction front using List.reverseRecOn with
  | nil => simp
  | append_singleton front d ih =>
      intro back heq _
      have htext : c :: cs ++ rest = front ++ (d :: (back ++ rest)) := by simp [heq]
      rw [← List.append_assoc, cursor_concat]
      cases front with
      | nil =>
          simp only [List.nil_append] at htext
          rw [List.append_nil, ← htext, Cursor.pass_of_takes hfree (by simpa using ht), rule_cursor]
      | cons e front =>
          have hstep := ih (d :: back) (by simpa using heq) (by simp)
          rw [List.cons_append] at hstep
          rw [hstep]
          apply Cursor.pass_of_lt
          have hpos := Char.utf8Size_pos d
          rw [heq]
          simp only [byteLength_append, byteLength_cons]
          omega

/-- A cursor passes characters at which its rule takes nothing. -/
theorem cursor_of_none {rule : Rule} {before middle rest : List Char}
    (h : ∀ c cs, (c :: cs) <:+ middle → rule.pattern.width? (c :: cs ++ rest) = none) :
    rule.cursor (before ++ middle) rest = rule.cursor before (middle ++ rest) := by
  induction middle generalizing before with
  | nil => simp
  | cons c middle ih =>
      have hstep := @ih (before ++ [c])
        (fun d ds hd => h d ds (hd.trans (List.suffix_cons c middle)))
      rw [List.append_assoc, List.singleton_append] at hstep
      rw [hstep, cursor_concat, List.cons_append]
      apply Cursor.pass_of_width?_eq_none
      rw [rule_cursor]
      exact h c middle (List.suffix_refl _)

/-- A quoted text begins with a quote. -/
theorem width?_eq_none_of_ne_quote {rule : Rule} (hp : rule.pattern = .quoted) {c : Char}
    (hc : c ≠ '\'') (cs : List Char) : rule.pattern.width? (c :: cs) = none := by
  cases hwidth : rule.pattern.width? (c :: cs) with
  | none => rfl
  | some w =>
      rw [hp] at hwidth
      obtain ⟨inside, rest, heq, -⟩ := Pattern.exists_of_width?_quoted hwidth
      exact absurd (List.cons.inj heq).1 hc

/-- A number is taken where a digit stands, up to the first character that is none. -/
theorem exists_takes_digitRun {rule : Rule} (hp : rule.pattern = .digitRun) {cs : List Char}
    (hcs : startsWithDigit cs = true) :
    ∃ run rest, cs = run ++ rest ∧ run ≠ [] ∧ rule.Takes run rest := by
  cases hwidth : rule.pattern.width? cs with
  | none =>
      rw [hp] at hwidth
      cases cs with
      | nil => contradiction
      | cons d cs =>
          rw [startsWithDigit_cons] at hcs
          simp [Pattern.width?, hcs] at hwidth
  | some w =>
      have hdigits := hwidth
      rw [hp] at hdigits
      obtain ⟨run, rest, rfl, hne, -, -, rfl⟩ := Pattern.exists_of_width?_digitRun hdigits
      exact ⟨run, rest, rfl, hne, hwidth⟩

/-- A number goes on as long as digits follow. -/
theorem ne_nil_of_takes_digitRun {rule : Rule} (hp : rule.pattern = .digitRun)
    {front back rest : List Char} (ht : rule.Takes (front ++ back) rest)
    (h : startsWithDigit (back ++ rest) = true) : back ≠ [] := by
  rintro rfl
  rw [List.nil_append, (ht.digits hp).2] at h
  contradiction

/-- Where a digit follows, a number is missed exactly behind a digit. -/
theorem cursor_digitRun {rule : Rule} (hp : rule.pattern = .digitRun) {before rest : List Char}
    (hrest : startsWithDigit rest = true) :
    byteLength before < (rule.cursor before rest).free ↔ endsInDigit before = true := by
  constructor
  · intro hlt
    obtain hfree | ⟨earlier, front, back, rest', rfl, -, hfront, -, ht, -⟩ :=
      cursor_cases rule before rest
    · omega
    · rw [endsInDigit_append earlier hfront]
      exact endsInDigit_of_all hfront fun c hc => (ht.digits hp).1 c (List.mem_append_left back hc)
  · intro hdigit
    obtain rfl | ⟨before, d, rfl⟩ := List.eq_nil_or_concat before
    · contradiction
    · rw [List.concat_eq_append, endsInDigit_concat] at hdigit
      rw [List.concat_eq_append, cursor_concat, byteLength_append, byteLength_cons, byteLength_nil]
      obtain hfree | ⟨earlier, front, back, rest', rfl, heq, -, hback, ht, hfree⟩ :=
        cursor_cases rule before (d :: rest)
      · -- the number begins at `d` and goes on into `rest`
        obtain ⟨run, rest', heq, hne, ht⟩ :=
          exists_takes_digitRun hp (show startsWithDigit (d :: rest) = true from hdigit)
        rw [heq] at hfree ⊢
        rw [Cursor.pass_of_takes hfree (by simpa using ht)]
        obtain ⟨e, run, rfl⟩ := List.exists_cons_of_ne_nil hne
        obtain ⟨rfl, rfl⟩ := List.cons.inj heq
        have hrun : run ≠ [] := by
          rw [← List.singleton_append] at ht
          exact ne_nil_of_takes_digitRun hp ht hrest
        have hpos : byteLength run ≠ 0 := by simpa [byteLength_eq_zero] using hrun
        simp only [byteLength_cons]
        omega
      · -- the number that reaches `d` does not stop there
        obtain ⟨e, back, rfl⟩ := List.exists_cons_of_ne_nil hback
        obtain ⟨rfl, rfl⟩ := List.cons.inj heq
        rw [List.append_cons] at ht
        have hmore : back ≠ [] := ne_nil_of_takes_digitRun hp ht hrest
        have hpos : byteLength back ≠ 0 := by simpa [byteLength_eq_zero] using hmore
        have hsize := Char.utf8Size_pos d
        rw [Cursor.pass_of_lt, hfree]
        · simp only [byteLength_append, byteLength_cons]
          omega
        · rw [hfree]
          simp only [byteLength_append, byteLength_cons]
          omega

end Rule

end ErrorQuery
