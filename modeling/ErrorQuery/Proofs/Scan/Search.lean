import ErrorQuery.Proofs.Scan.Dropped
import ErrorQuery.Proofs.Token.Expression

/-!
# Searching a text for the expression of a rule

`Expression.search?` goes along a text to the first place where an expression matches, and
`Expression.Finds` repeats the search, each time from the end of what was found.  A rule is looked
for in both ways.  Bound to the beginning of the text, its expression is found at the front or not
at all, which is what the rule takes there (`Rule.tokenAt?_eq_search?`).  Left unbound and searched
for again and again, it is found where a cursor meets it, although the cursor walks character by
character and remembers how far it is taken up (`Rule.exists_finds_findAll`).

So the two forms agree: what the second search finds stands one behind the other, is what the first
finds in the text from there on, and covers every place where the first finds anything
(`anchored_and_global_forms_agree`).
-/

set_option autoImplicit false

namespace ErrorQuery

open Text

/-- A stretch of a text that an expression has matched, with what stands around it and its value. -/
structure Occurrence where
  before : List Char
  taken : List Char
  rest : List Char
  value : List Char

/-- The token of the given kind that stands where the occurrence does. -/
def Occurrence.token (kind : Kind) (found : Occurrence) : Token :=
  ⟨kind, String.ofList found.value,
    ⟨byteLength found.before, byteLength found.before + byteLength found.taken⟩⟩

namespace Expression

/-- The preferred match of an expression between `before` and `cs`. -/
def matchAt? (e : Expression) (before cs : List Char) : Option Occurrence :=
  (e.ways before cs).head?.map fun way =>
    ⟨before, cs.take way.width, cs.drop way.width, way.value cs⟩

/-- The first occurrence of an expression from the place behind `before` on. -/
def search? (e : Expression) (before : List Char) : List Char → Option Occurrence
  | [] => e.matchAt? before []
  | c :: cs => (e.matchAt? before (c :: cs)).or (e.search? (before ++ [c]) cs)

/-- The occurrences that an expression is found at, each search going on where the last occurrence
has ended. -/
inductive Finds (e : Expression) : List Char → List Char → List Occurrence → Prop where
  | done {before cs : List Char} : e.search? before cs = none → Finds e before cs []
  | next {before cs : List Char} {found : Occurrence} {later : List Occurrence} :
      e.search? before cs = some found → found.taken ≠ [] →
      Finds e (found.before ++ found.taken) found.rest later → Finds e before cs (found :: later)

/-! ### The anchored form -/

/-- An anchored expression matches nothing behind the front of the text. -/
theorem matchAt?_anchored_of_ne_nil (e : Expression) {before : List Char} (h : before ≠ [])
    (cs : List Char) : e.anchored.matchAt? before cs = none := by
  simp [matchAt?, ways_anchored, h]

/-- An anchored expression is found nowhere behind the front of the text. -/
theorem search?_anchored_of_ne_nil (e : Expression) {before : List Char} (h : before ≠ [])
    (cs : List Char) : e.anchored.search? before cs = none := by
  induction cs generalizing before with
  | nil => exact matchAt?_anchored_of_ne_nil e h []
  | cons c cs ih =>
      have hlater : before ++ [c] ≠ [] := List.append_ne_nil_of_left_ne_nil h [c]
      rw [search?, matchAt?_anchored_of_ne_nil e h, ih hlater, Option.or_none]

/-- An expression bound to the beginning of a text is found there or not at all. -/
theorem search?_anchored (e : Expression) (cs : List Char) :
    e.anchored.search? [] cs = e.matchAt? [] cs := by
  have hfront : e.anchored.matchAt? [] cs = e.matchAt? [] cs := by
    simp [matchAt?, ways_anchored]
  cases cs with
  | nil => exact hfront
  | cons c cs =>
      rw [search?, hfront, search?_anchored_of_ne_nil e (by simp), Option.or_none]

end Expression

/-! ### The expression of a rule -/

namespace Rule

/-- The occurrence of what a rule takes. -/
def occurrence (rule : Rule) (before taken rest : List Char) : Occurrence :=
  ⟨before, taken, rest, rule.pattern.value taken⟩

/-- The token of an occurrence is that which the rule makes of what it takes. -/
theorem token_occurrence (rule : Rule) (before taken rest : List Char) :
    (rule.occurrence before taken rest).token rule.kind = rule.token (byteLength before) taken :=
  rfl

/-- The expression of a rule matches what the rule takes. -/
theorem matchAt?_eq_map_width? (rule : Rule) (before cs : List Char) :
    rule.pattern.expression.matchAt? before cs =
      (rule.pattern.width? cs).map fun width =>
        rule.occurrence before (cs.take width) (cs.drop width) := by
  have hways := congrArg (Option.map fun way : Nat × List Char =>
    (⟨before, cs.take way.1, cs.drop way.1, way.2⟩ : Occurrence))
    (rule.pattern.map_head?_ways before cs)
  rw [Option.map_map, Option.map_map] at hways
  exact hways

/-- The expression of a rule matches where the rule takes something, and the match is what it
takes. -/
theorem matchAt?_cases (rule : Rule) (before cs : List Char) :
    (rule.pattern.width? cs = none ∧ rule.pattern.expression.matchAt? before cs = none) ∨
      ∃ taken rest, cs = taken ++ rest ∧ rule.Takes taken rest ∧
        rule.pattern.expression.matchAt? before cs = some (rule.occurrence before taken rest) := by
  rw [matchAt?_eq_map_width?]
  cases hwidth : rule.pattern.width? cs with
  | none => exact .inl ⟨rfl, rfl⟩
  | some width =>
      have hlen : (cs.take width).length = width := by
        rw [List.length_take, Nat.min_eq_left (Pattern.width?_le hwidth)]
      refine .inr ⟨cs.take width, cs.drop width, (List.take_append_drop width cs).symm, ?_, rfl⟩
      rw [Takes, List.take_append_drop, hlen, hwidth]

/-- The token of a rule at a place is that of the match of its expression. -/
theorem tokenAt?_eq_map_matchAt? (rule : Rule) (before cs : List Char) :
    rule.tokenAt? (byteLength before) cs =
      (rule.pattern.expression.matchAt? before cs).map (·.token rule.kind) := by
  obtain ⟨hwidth, hmatch⟩ | ⟨taken, rest, rfl, ht, hmatch⟩ := matchAt?_cases rule before cs
  · rw [hmatch, tokenAt?_eq_none_iff.mpr hwidth, Option.map_none]
  · rw [hmatch, tokenAt?_of_takes ht, Option.map_some, token_occurrence]

/-- What a rule takes at the front of a text is where its anchored expression is found. -/
theorem tokenAt?_eq_search? (rule : Rule) (cs : List Char) :
    rule.tokenAt? 0 cs =
      (rule.pattern.expression.anchored.search? [] cs).map (·.token rule.kind) := by
  rw [Expression.search?_anchored]
  exact tokenAt?_eq_map_matchAt? rule [] cs

end Rule

/-! ### The walk of a cursor -/

namespace Cursor

/-- A cursor moves on where its rule takes nothing. -/
theorem run_of_none {cursor : Cursor} {c : Char} {cs : List Char}
    (h : cursor.rule.pattern.width? (c :: cs) = none) (position : Nat) :
    scanner.run cursor position (c :: cs) = scanner.run cursor (position + c.utf8Size) cs := by
  have hhit : scanner.token? cursor position (c :: cs) = none := by
    simp [scanner, hit?, Rule.tokenAt?_eq_none_iff.mpr h]
  have hpass : scanner.next cursor position (c :: cs) = cursor := pass_of_width?_eq_none h position
  rw [Scanner.run, hhit, hpass, Option.toList_none, List.nil_append]

/-- A cursor that is not free moves on to where it is. -/
theorem run_inside {cursor : Cursor} {position : Nat} (inside rest : List Char)
    (h : position + byteLength inside ≤ cursor.free) :
    scanner.run cursor position (inside ++ rest) =
      scanner.run cursor (position + byteLength inside) rest := by
  induction inside generalizing position with
  | nil => simp
  | cons c inside ih =>
      have hpos := Char.utf8Size_pos c
      rw [byteLength_cons] at h ⊢
      have hlt : position < cursor.free := by omega
      have hhit : scanner.token? cursor position (c :: (inside ++ rest)) = none := by
        show cursor.hit? position _ = none
        rw [hit?, if_neg (Nat.not_le.mpr hlt)]
      have hpass : scanner.next cursor position (c :: (inside ++ rest)) = cursor :=
        pass_of_lt hlt _
      rw [List.cons_append, Scanner.run, hhit, hpass, Option.toList_none, List.nil_append,
        ih (by omega), Nat.add_assoc]

/-- A free cursor meets what its rule takes and goes on behind it. -/
theorem run_takes {cursor : Cursor} {position : Nat} {taken rest : List Char}
    (hfree : cursor.free ≤ position) (ht : cursor.rule.Takes taken rest) (hne : taken ≠ []) :
    scanner.run cursor position (taken ++ rest) =
      cursor.rule.token position taken ::
        scanner.run ⟨cursor.rule, position + byteLength taken⟩ (position + byteLength taken)
          rest := by
  have hhit : scanner.token? cursor position (taken ++ rest) =
      some (cursor.rule.token position taken) := by
    show cursor.hit? position _ = _
    rw [hit?, if_pos hfree, Rule.tokenAt?_of_takes ht]
  have hpass : scanner.next cursor position (taken ++ rest) =
      ⟨cursor.rule, position + byteLength taken⟩ := pass_of_takes hfree ht
  obtain ⟨c, taken, rfl⟩ := List.exists_cons_of_ne_nil hne
  rw [List.cons_append] at hhit hpass ⊢
  rw [byteLength_cons, ← Nat.add_assoc] at hpass ⊢
  rw [Scanner.run, hhit, hpass, Option.toList_some, List.singleton_append,
    run_inside taken rest (Nat.le_refl _)]

end Cursor

namespace Rule

/-- A free cursor meets nothing if the expression of its rule is not found any more, and else it
meets what is found first. -/
theorem run_cases {rule : Rule} (hrule : rule ∈ table) {free : Nat} {before : List Char}
    (hfree : free ≤ byteLength before) (cs : List Char) :
    (rule.pattern.expression.search? before cs = none ∧
        Cursor.scanner.run ⟨rule, free⟩ (byteLength before) cs = []) ∨
      ∃ gap taken rest, cs = gap ++ (taken ++ rest) ∧ taken ≠ [] ∧
        rule.pattern.expression.search? before cs =
          some (rule.occurrence (before ++ gap) taken rest) ∧
        Cursor.scanner.run ⟨rule, free⟩ (byteLength before) cs =
          rule.token (byteLength (before ++ gap)) taken ::
            Cursor.scanner.run ⟨rule, byteLength (before ++ gap ++ taken)⟩
              (byteLength (before ++ gap ++ taken)) rest := by
  induction cs generalizing before with
  | nil =>
      obtain ⟨-, hmatch⟩ | ⟨taken, rest, heq, ht, -⟩ := matchAt?_cases rule before []
      · exact .inl ⟨hmatch, rfl⟩
      · -- a rule of the table takes nothing at the end of the text
        obtain ⟨c, taken, rfl, -⟩ := ht.exists_cons hrule
        contradiction
  | cons c cs ih =>
      obtain ⟨hwidth, hmatch⟩ | ⟨taken, rest, htext, ht, hmatch⟩ :=
        matchAt?_cases rule before (c :: cs)
      · have hnext : byteLength before + c.utf8Size = byteLength (before ++ [c]) := by simp
        have hwalk : Cursor.scanner.run ⟨rule, free⟩ (byteLength before) (c :: cs) =
            Cursor.scanner.run ⟨rule, free⟩ (byteLength (before ++ [c])) cs := by
          rw [Cursor.run_of_none hwidth, hnext]
        rw [Expression.search?, hmatch, Option.none_or, hwalk]
        obtain hnone | ⟨gap, taken, rest, rfl, hne, hsearch, hrun⟩ := @ih (before ++ [c]) (by omega)
        · exact .inl hnone
        · rw [List.append_assoc, List.singleton_append] at hsearch hrun
          exact .inr ⟨c :: gap, taken, rest, rfl, hne, hsearch, hrun⟩
      · obtain ⟨d, ds, htaken, -⟩ := ht.exists_cons hrule
        have hne : taken ≠ [] := by
          rw [htaken]
          exact List.cons_ne_nil d ds
        refine .inr ⟨[], taken, rest, htext, hne, ?_, ?_⟩
        · rw [Expression.search?, hmatch, Option.some_or, List.append_nil]
        · rw [htext, Cursor.run_takes hfree ht hne, List.append_nil, byteLength_append]

/-- The tokens that a cursor meets are the occurrences of its expression that one search after the
other finds. -/
theorem exists_finds_run {rule : Rule} (hrule : rule ∈ table) {free : Nat}
    {before cs : List Char} (hfree : free ≤ byteLength before) :
    ∃ found, rule.pattern.expression.Finds before cs found ∧
      Cursor.scanner.run ⟨rule, free⟩ (byteLength before) cs =
        found.map (·.token rule.kind) := by
  obtain ⟨hnone, hrun⟩ | ⟨gap, taken, rest, hcs, hne, hsearch, hrun⟩ := run_cases hrule hfree cs
  · exact ⟨[], .done hnone, hrun⟩
  · have hshorter : rest.length < cs.length := by
      have hpos := List.length_pos_iff.mpr hne
      rw [hcs, List.length_append, List.length_append]
      omega
    obtain ⟨later, hlater, hrest⟩ :=
      @exists_finds_run rule hrule _ (before ++ gap ++ taken) rest (Nat.le_refl _)
    refine ⟨rule.occurrence (before ++ gap) taken rest :: later, .next hsearch hne hlater, ?_⟩
    rw [hrun, hrest]
    rfl
termination_by cs.length

/-- The tokens of a rule are found by searching for its expression again and again. -/
theorem exists_finds_findAll {rule : Rule} (hrule : rule ∈ table) (cs : List Char) :
    ∃ found, rule.pattern.expression.Finds [] cs found ∧
      rule.findAll cs = found.map (·.token rule.kind) := by
  rw [findAll_eq_run]
  exact exists_finds_run hrule (Nat.le_refl 0)

end Rule

/-! ### Both forms -/

/-- A place where a rule takes something lies in one of its tokens: one begins there, or an earlier
one reaches past. -/
theorem Rule.exists_contains_of_takes {rule : Rule} (hrule : rule ∈ table)
    {taken rest : List Char} (ht : rule.Takes taken rest) (before : List Char) :
    ∃ token ∈ rule.findAll (before ++ (taken ++ rest)),
      token.span.Contains (byteLength before) := by
  by_cases hfree : (rule.cursor before (taken ++ rest)).free ≤ byteLength before
  · have hlt := Token.FromRule.start_lt_stop ⟨rule, hrule, before, taken, rest, rfl, ht, rfl⟩
    exact ⟨_, mem_findAll_of_takes hrule ht hfree, Nat.le_refl _, hlt⟩
  · obtain ⟨token, htoken, hlow, hhigh⟩ :=
      (lt_free_iff rule before (taken ++ rest)).mp (Nat.not_le.mp hfree)
    exact ⟨token, htoken, Nat.le_of_lt hlow, hhigh⟩

/-- The two forms of a rule agree.  The anchored one is what the rule reads at the front of a text,
the global one is searched for again and again to find all its tokens.  These are not empty and
stand one behind the other, each is what the anchored form reads in the text from its beginning on,
and every place from which the anchored form reads anything lies in one of them. -/
theorem anchored_and_global_forms_agree {rule : Rule} (hrule : rule ∈ Rule.table) (text : String) :
    (∀ cs, rule.tokenAt? 0 cs =
      (rule.pattern.expression.anchored.search? [] cs).map (·.token rule.kind)) ∧
    (∃ found, rule.pattern.expression.Finds [] text.toList found ∧
      rule.findAll text.toList = found.map (·.token rule.kind)) ∧
    ((rule.findAll text.toList).Pairwise fun a b => a.span.stop ≤ b.span.start) ∧
    (∀ token ∈ rule.findAll text.toList, token.span.start < token.span.stop ∧
      IsBoundary text.toList token.span.start ∧
      rule.tokenAt? 0 (dropBytes token.span.start text.toList) =
        some ⟨rule.kind, token.value, ⟨0, token.span.stop - token.span.start⟩⟩) ∧
    (∀ n, IsBoundary text.toList n →
      (rule.tokenAt? 0 (dropBytes n text.toList)).isSome = true →
      ∃ token ∈ rule.findAll text.toList, token.span.Contains n) := by
  refine ⟨rule.tokenAt?_eq_search?, Rule.exists_finds_findAll hrule _,
    rule.pairwise_findAll _, ?_, ?_⟩
  · intro token htoken
    obtain ⟨before, taken, rest, hsplit, ht, -, rfl⟩ := Rule.exists_takes_of_mem_findAll htoken
    have hstart : (rule.token (byteLength before) taken).span.start = byteLength before := rfl
    refine ⟨Token.FromRule.start_lt_stop ⟨rule, hrule, before, taken, rest, rfl, ht, rfl⟩,
      ⟨before, taken ++ rest, hsplit, rfl⟩, ?_⟩
    rw [hsplit, hstart, dropBytes_append, Rule.tokenAt?_of_takes ht]
    simp [Rule.token]
  · rintro n ⟨before, rest, hsplit, rfl⟩ hmatch
    rw [hsplit] at hmatch ⊢
    rw [dropBytes_append] at hmatch
    obtain ⟨token, htoken⟩ := Option.isSome_iff_exists.mp hmatch
    obtain ⟨taken, rest, rfl, ht, -⟩ := Rule.exists_takes_of_tokenAt? htoken
    exact Rule.exists_contains_of_takes hrule ht before

/-- A closing quote that opens another quoted text, behind a character of two bytes: the second
text is read from there on, and the place lies in the first. -/
theorem anchored_and_global_forms_agree_at_closing_quote :
    Rule.quotedText ∈ Rule.table ∧
      Rule.quotedText.findAll "é'a'b'".toList = [⟨.text, "a", ⟨2, 5⟩⟩] ∧
      Rule.quotedText.tokenAt? 0 (dropBytes 2 "é'a'b'".toList) = some ⟨.text, "a", ⟨0, 3⟩⟩ ∧
      Rule.quotedText.tokenAt? 0 (dropBytes 4 "é'a'b'".toList) = some ⟨.text, "b", ⟨0, 3⟩⟩ ∧
      ∃ token ∈ Rule.quotedText.findAll "é'a'b'".toList, token.span.Contains 4 := by
  have hrule : Rule.quotedText ∈ Rule.table := by decide
  have hfound : Rule.quotedText.findAll "é'a'b'".toList = [⟨.text, "a", ⟨2, 5⟩⟩] := by
    decide +kernel
  have hinside : Rule.quotedText.tokenAt? 0 (dropBytes 4 "é'a'b'".toList) =
      some ⟨.text, "b", ⟨0, 3⟩⟩ := by
    decide +kernel
  have hplace : IsBoundary "é'a'b'".toList 4 :=
    ⟨"é'a".toList, "'b'".toList, by decide, by decide⟩
  obtain ⟨-, -, -, hread, hcover⟩ := anchored_and_global_forms_agree hrule "é'a'b'"
  have hfirst := (hread ⟨.text, "a", ⟨2, 5⟩⟩ (by rw [hfound]; exact List.mem_singleton_self _)).2.2
  exact ⟨hrule, hfound, hfirst, hinside, hcover 4 hplace (by rw [hinside]; rfl)⟩

end ErrorQuery
