import ErrorQuery.Proofs.Token.Takes

/-!
# Patterns as regular expressions

Every pattern is a regular expression: a shape is one class of characters behind the other, several
shapes are a choice, a quoted text is a run of other characters between two quotes, and a number is
a digit with a run of digits behind it.  `Expression.ways` lists how an expression matches at a
place of a text, the preferred way first: of a choice the first part before the second, of a run
the longer before the shorter.

A pattern decides on one width without trying others.  It is that of the way which its expression
prefers, and the value it cuts out is what the expression keeps (`Pattern.map_head?_ways`).  Put
behind the beginning of the text (`Expression.anchored`), a choice is bound as a whole, so the
expression matches there as before and nowhere else (`Expression.ways_anchored`).
-/

set_option autoImplicit false

namespace ErrorQuery

open Text

/-- A regular expression. -/
inductive Expression where
  /-- Matches nowhere. -/
  | never
  /-- Takes no character. -/
  | nothing
  /-- Takes no character, and only where the whole text begins. -/
  | start
  /-- Takes one character of a class. -/
  | one (holds : Char → Bool)
  /-- Takes characters of a class, as many as possible. -/
  | many (holds : Char → Bool)
  /-- Takes what the first part takes and behind it what the second does. -/
  | chain (first second : Expression)
  /-- Takes what the first part takes, or else what the second does. -/
  | either (first second : Expression)
  /-- Takes what the inner part takes and keeps it as the value. -/
  | keep (inner : Expression)

namespace Expression

/-- How an expression matches: the number of characters it takes and what it keeps of them. -/
structure Way where
  width : Nat
  kept : Option (List Char)

namespace Way

/-- One way behind the other. -/
def append (first second : Way) : Way :=
  ⟨first.width + second.width, second.kept.or first.kept⟩

/-- The value of a match at the front of a text: what was kept, or else all that was taken. -/
def value (way : Way) (cs : List Char) : List Char :=
  way.kept.getD (cs.take way.width)

/-- A way that takes nothing changes none behind it. -/
theorem append_nothing : append ⟨0, none⟩ = id := by
  funext way
  simp [append]

end Way

/-- The ways in which an expression matches between `before` and the rest of a text, the preferred
one first. -/
def ways : Expression → List Char → List Char → List Way
  | .never, _, _ => []
  | .nothing, _, _ => [⟨0, none⟩]
  | .start, before, _ => if before.isEmpty then [⟨0, none⟩] else []
  | .one holds, _, cs => if cs.head?.any holds then [⟨1, none⟩] else []
  | .many holds, _, cs =>
      (List.range ((cs.takeWhile holds).length + 1)).reverse.map fun width => ⟨width, none⟩
  | .chain first second, before, cs =>
      (first.ways before cs).flatMap fun way =>
        (second.ways (before ++ cs.take way.width) (cs.drop way.width)).map way.append
  | .either first second, before, cs => first.ways before cs ++ second.ways before cs
  | .keep inner, before, cs =>
      (inner.ways before cs).map fun way => ⟨way.width, some (cs.take way.width)⟩

/-- The expression bound to the beginning of the text. -/
def anchored (e : Expression) : Expression :=
  .chain .start e

/-- A bound expression matches as before, but nowhere else than at the beginning. -/
theorem ways_anchored (e : Expression) (before cs : List Char) :
    e.anchored.ways before cs = if before.isEmpty then e.ways before cs else [] := by
  cases before with
  | nil => simp [anchored, ways, Way.append_nothing]
  | cons c before => rfl

/-- Repeated characters are matched from the longest run down to none. -/
theorem ways_many (holds : Char → Bool) (before cs : List Char) :
    (many holds).ways before cs = ⟨(cs.takeWhile holds).length, none⟩ ::
      (List.range (cs.takeWhile holds).length).reverse.map fun width => ⟨width, none⟩ := by
  simp [ways, List.range_succ]

/-- A text begins with its longest run of a class. -/
theorem exists_run (holds : Char → Bool) (cs : List Char) :
    ∃ run rest, cs = run ++ rest ∧ (∀ c ∈ run, holds c = true) ∧ rest.head?.any holds = false := by
  refine ⟨cs.takeWhile holds, cs.dropWhile holds, List.takeWhile_append_dropWhile.symm,
    List.all_eq_true.mp List.all_takeWhile, ?_⟩
  have hnext := List.head?_dropWhile_not holds cs
  cases hrest : (cs.dropWhile holds).head? with
  | none => rfl
  | some c =>
      rw [hrest] at hnext
      simpa using hnext

/-- Inside a run of a class no other character follows. -/
theorem ways_one_inside {holds : Char → Bool} {run : List Char} {width : Nat}
    (hrun : ∀ c ∈ run, holds c = true) (hlt : width < run.length) (before rest : List Char) :
    (one fun c => !holds c).ways before ((run ++ rest).drop width) = [] := by
  have hnext := hrun _ (List.getElem_mem hlt)
  rw [List.drop_append_of_le_length (Nat.le_of_lt hlt), List.drop_eq_getElem_cons hlt,
    List.cons_append, ways, List.head?_cons, Option.any_some, hnext]
  rfl

/-- Of the runs of a class only the longest is followed by a character that is not of the class. -/
theorem ways_keep_many {holds : Char → Bool} {run rest : List Char}
    (hrun : ∀ c ∈ run, holds c = true) (hrest : rest.head?.any holds = false)
    (before : List Char) :
    (chain (keep (many holds)) (one fun c => !holds c)).ways before (run ++ rest) =
      if rest.isEmpty then [] else [⟨run.length + 1, some run⟩] := by
  have htake : (run ++ rest).takeWhile holds = run := by
    rw [List.takeWhile_append_of_pos hrun]
    cases rest with
    | nil => simp
    | cons c rest => simp_all
  -- a shorter run is followed by a character of the class
  have hshorter : ((List.range run.length).reverse.map fun width =>
      (⟨width, some ((run ++ rest).take width)⟩ : Way)).flatMap (fun way =>
        ((one fun c => !holds c).ways (before ++ (run ++ rest).take way.width)
          ((run ++ rest).drop way.width)).map way.append) = [] := by
    rw [List.flatMap_eq_nil_iff]
    intro way hway
    simp only [List.mem_map, List.mem_reverse, List.mem_range] at hway
    obtain ⟨width, hlt, rfl⟩ := hway
    rw [ways_one_inside hrun hlt, List.map_nil]
  rw [ways, ways, ways_many, htake]
  simp only [List.map_cons, List.map_map, Function.comp_def, List.flatMap_cons, hshorter,
    List.append_nil]
  cases rest with
  | nil => simp [ways]
  | cons c rest =>
      have hc : holds c = false := by simpa using hrest
      simp [ways, hc, Way.append]

end Expression

/-! ### The expressions of patterns -/

namespace Shape

/-- The expression of a shape: a class for each slot. -/
def expression (shape : Shape) : Expression :=
  shape.foldr (fun slot rest => .chain (.one slot.fits) rest) .nothing

/-- The expression of a shape matches its first slot and then the others. -/
@[simp] theorem expression_cons (slot : Slot) (s : Shape) :
    expression (slot :: s) = .chain (.one slot.fits) (expression s) := rfl

/-- A shape matches in one way at most. -/
theorem ways_expression (s : Shape) (before cs : List Char) :
    (expression s).ways before cs = if s.fits cs then [⟨s.length, none⟩] else [] := by
  induction s generalizing before cs with
  | nil => rfl
  | cons slot s ih =>
      cases cs with
      | nil => rfl
      | cons c cs =>
          have hrest := ih (before ++ [c]) cs
          cases hc : slot.fits c with
          | false => simp [Expression.ways, fits, hc]
          | true =>
              cases hs : Shape.fits s cs with
              | false => simp [Expression.ways, fits, hc, hs, hrest]
              | true =>
                  simp [Expression.ways, fits, hc, hs, hrest, Expression.Way.append, Nat.add_comm]

end Shape

namespace Pattern

/-- The expression of a pattern. -/
def expression : Pattern → Expression
  | .shapes alternatives =>
      alternatives.foldr (fun shape others => .either shape.expression others) .never
  | .quoted =>
      .chain (.one (· == '\'')) (.chain (.keep (.many isUnquoted)) (.one (· == '\'')))
  | .digitRun => .chain (.one isDecimalDigit) (.many isDecimalDigit)

/-- Of several shapes the first that fits is preferred. -/
theorem head?_ways_shapes (alternatives : List Shape) (before cs : List Char) :
    ((shapes alternatives).expression.ways before cs).head? =
      ((shapes alternatives).width? cs).map fun width => ⟨width, none⟩ := by
  induction alternatives with
  | nil => rfl
  | cons s alternatives ih =>
      have hcons : (shapes (s :: alternatives)).expression =
          .either (Shape.expression s) (shapes alternatives).expression := rfl
      rw [hcons, Expression.ways, List.head?_append, ih, Shape.ways_expression]
      cases hs : Shape.fits s cs with
      | false => simp [width?, hs]
      | true => simp [width?, hs]

/-- A text without a second quote begins with no quoted text. -/
theorem width?_quoted_eq_none {cs : List Char}
    (h : ∀ inside rest, cs ≠ '\'' :: (inside ++ '\'' :: rest)) : quoted.width? cs = none := by
  rw [Option.eq_none_iff_forall_ne_some]
  intro width hwidth
  obtain ⟨inside, rest, rfl, -⟩ := exists_of_width?_quoted hwidth
  exact h inside rest rfl

/-- Behind an opening quote the run of other characters is all that can stand before the closing
one. -/
theorem ways_quoted {run rest : List Char} (hrun : ∀ c ∈ run, isUnquoted c = true)
    (hrest : rest.head?.any isUnquoted = false) (before : List Char) :
    quoted.expression.ways before ('\'' :: (run ++ rest)) =
      if rest.isEmpty then [] else [⟨run.length + 2, some run⟩] := by
  have hquote : (· == '\'') = fun c => !isUnquoted c := by
    funext c
    simp [isUnquoted, bne]
  have hone : (Expression.one fun c => !isUnquoted c).ways before ('\'' :: (run ++ rest)) =
      [⟨1, none⟩] := rfl
  have hinner := Expression.ways_keep_many hrun hrest (before ++ ['\''])
  rw [expression, hquote, Expression.ways, hone, List.flatMap_singleton, List.drop_one,
    List.tail_cons, List.take_one, List.head?_cons, Option.toList_some, hinner]
  cases rest with
  | nil => rfl
  | cons q rest =>
      simp only [List.isEmpty_cons, Bool.false_eq_true, if_false, List.map_cons, List.map_nil,
        Expression.Way.append, Option.or_none, Nat.add_comm 1]

/-- The first match of the expression for quoted texts is what the rule takes. -/
theorem head?_ways_quoted (before cs : List Char) :
    (quoted.expression.ways before cs).head? =
      (quoted.width? cs).map fun width => ⟨width, some (quoted.value (cs.take width))⟩ := by
  cases cs with
  | nil => rfl
  | cons c cs =>
      by_cases hc : c = '\''
      · subst hc
        obtain ⟨run, rest, rfl, hrun, hrest⟩ := Expression.exists_run isUnquoted cs
        have hinside : ∀ c ∈ run, c ≠ '\'' := by
          intro c hmem
          simpa [isUnquoted] using hrun c hmem
        rw [ways_quoted hrun hrest]
        cases rest with
        | nil =>
            rw [width?_quoted_eq_none]
            · rfl
            · intro inside rest heq
              exact hinside '\'' (by simp_all) rfl
        | cons q rest =>
            obtain rfl : q = '\'' := by simpa [isUnquoted] using hrest
            have hvalue : quoted.value (('\'' :: (run ++ '\'' :: rest)).take (run.length + 2)) =
                run := by
              simp [value, List.take_append, List.take_of_length_le]
            rw [width?_quoted hinside, Option.map_some, hvalue]
            rfl
      · rw [width?_quoted_eq_none]
        · simp [expression, Expression.ways, hc]
        · intro inside rest heq
          exact hc (List.cons.inj heq).1

/-- The first match of the expression for numbers is what the rule takes. -/
theorem head?_ways_digitRun (before cs : List Char) :
    (digitRun.expression.ways before cs).head? =
      (digitRun.width? cs).map fun width => ⟨width, none⟩ := by
  cases cs with
  | nil => rfl
  | cons c cs =>
      cases hc : isDecimalDigit c with
      | false => simp [expression, Expression.ways, width?, hc]
      | true =>
          have hone : (Expression.one isDecimalDigit).ways before (c :: cs) = [⟨1, none⟩] := by
            simp [Expression.ways, hc]
          rw [expression, Expression.ways, hone, List.flatMap_singleton, Expression.ways_many]
          simp [width?, hc, Expression.Way.append, Nat.add_comm]

/-- A pattern takes what its expression prefers, and its value is what the expression keeps. -/
theorem map_head?_ways (p : Pattern) (before cs : List Char) :
    (p.expression.ways before cs).head?.map (fun way => (way.width, way.value cs)) =
      (p.width? cs).map fun width => (width, p.value (cs.take width)) := by
  cases p with
  | shapes alternatives =>
      rw [head?_ways_shapes, Option.map_map]
      rfl
  | quoted =>
      rw [head?_ways_quoted, Option.map_map]
      rfl
  | digitRun =>
      rw [head?_ways_digitRun, Option.map_map]
      rfl

end Pattern

end ErrorQuery
