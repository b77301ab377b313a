import ErrorQuery.Sql.Payload
import ErrorQuery.Text.Characters
import Mathlib.Data.Int.Order.Basic
import Mathlib.Data.List.Lex

/-!
# What the search condition of a statement means

A statement selects the rows that its search condition admits.  The condition is read from the text
of the statement as SQL reads it: `OR` separates boolean terms, `AND` separates the boolean factors
of a term and so binds tighter, and the `AND` behind a `BETWEEN` belongs to the `BETWEEN`.  What
stands in parentheses is not divided.  A factor that parentheses enclose is a search condition of
its own; those of a list of placeholders stand inside a factor and belong to it.  A factor that
bounds the date is compared with the moments bound to its placeholders; whether any other factor
holds is a property of the row.

`value_of_chain` gives the value of conditions written in a row behind a first term, each with its
connector in front of it and without parentheses around any of them.  In parentheses behind `AND`
they count as one factor, whatever connectors stand between them (`Row.satisfies_append_enclosed`).
-/

set_option autoImplicit false

namespace ErrorQuery

/-! ### Moments in order -/

namespace DateTime

/-- The numbers of a moment, from the year down to the nanosecond. -/
def numbers (t : DateTime) : List Int :=
  [t.year, t.month, t.day, t.hour, t.minute, t.second, t.nano]

instance : LE DateTime :=
  ⟨fun t u => t.numbers ≤ u.numbers⟩

instance (t u : DateTime) : Decidable (t ≤ u) :=
  inferInstanceAs (Decidable (t.numbers ≤ u.numbers))

end DateTime

/-- Whether a moment lies between the ends of a range, both included. -/
def DateRange.Contains (range : DateRange) (t : DateTime) : Prop :=
  range.first ≤ t ∧ t ≤ range.last

instance (range : DateRange) (t : DateTime) : Decidable (range.Contains t) :=
  inferInstanceAs (Decidable (_ ∧ _))

/-- The word of a connector in a statement. -/
def Connector.word : Connector → String
  | .and => "AND"
  | .or => "OR"

namespace Sql

/-! ### Reading a search condition -/

/-- A character as it is divided from others: blanks stand around a parenthesis. -/
def spread (c : Char) : List Char :=
  if c = '(' ∨ c = ')' then [' ', c, ' '] else [c]

/-- The words of some characters, which stand between blanks; each parenthesis is a word. -/
def wordsOf (cs : List Char) : List String :=
  (((cs.flatMap spread).splitOnP Text.isBlank).filter fun word => !word.isEmpty).map String.ofList

/-- The words of a text. -/
def words (text : String) : List String :=
  wordsOf text.toList

/-- The words of the search condition of a statement, which stands between `WHERE` and
`GROUP BY`. -/
def searchCondition (sql : String) : List String :=
  (((words sql).dropWhile fun word => word != "WHERE").drop 1).takeWhile fun word => word != "GROUP"

/-- How many parentheses are open behind a word. -/
def depthBehind (depth : Nat) (word : String) : Nat :=
  if word = "(" then depth + 1 else if word = ")" then depth - 1 else depth

/-- A place in a search condition: the number of parentheses that are open there, and whether the
next `AND` outside of them belongs to an earlier `BETWEEN`. -/
structure Scope where
  depth : Nat
  waiting : Bool
  deriving DecidableEq

namespace Scope

/-- The place in front of a search condition. -/
def outermost : Scope :=
  ⟨0, false⟩

/-- The place behind a word. -/
def pass (scope : Scope) (word : String) : Scope where
  depth := depthBehind scope.depth word
  waiting :=
    if scope.depth = 0 then word == "BETWEEN" || (scope.waiting && word != "AND")
    else scope.waiting

end Scope

/-- The parts of some words between those that separate them.  A word separates only if no
parenthesis is open in front of it and no `BETWEEN` waits for its `AND`. -/
def divide (separator : String) (scope : Scope) : List String → List (List String)
  | [] => [[]]
  | word :: rest =>
      let parts := divide separator (scope.pass word) rest
      if word = separator ∧ scope = .outermost then [] :: parts else parts.modifyHead (word :: ·)

/-- The terms of a search condition. -/
def terms (condition : List String) : List (List String) :=
  divide "OR" .outermost condition

/-- The factors of a term. -/
def factors (term : List String) : List (List String) :=
  divide "AND" .outermost term

/-- The words in front of the parenthesis that closes one more than `depth` others, if it is the
last word. -/
def untilClosed? (depth : Nat) : List String → Option (List String)
  | [] => none
  | word :: rest =>
      if word = ")" ∧ depth = 0 then if rest = [] then some [] else none
      else (untilClosed? (depthBehind depth word) rest).map (word :: ·)

/-- What parentheses around a whole factor enclose. -/
def enclosed? : List String → Option (List String)
  | [] => none
  | word :: rest => if word = "(" then untilClosed? 0 rest else none

/-- No part is longer than the words that are divided. -/
theorem length_le_of_mem_divide {separator : String} {scope : Scope} {ws part : List String}
    (h : part ∈ divide separator scope ws) : part.length ≤ ws.length := by
  induction ws generalizing scope part with
  | nil =>
      rw [divide, List.mem_singleton] at h
      rw [h]
  | cons word ws ih =>
      simp only [divide] at h
      split at h
      · rcases List.mem_cons.mp h with rfl | h
        · exact Nat.zero_le _
        · exact Nat.le_succ_of_le (ih h)
      · cases hparts : divide separator (scope.pass word) ws with
        | nil => simp [hparts] at h
        | cons first parts =>
            rw [hparts, List.modifyHead_cons] at h
            rcases List.mem_cons.mp h with rfl | h
            · have hfirst : first.length ≤ ws.length := ih (hparts ▸ List.mem_cons_self)
              exact Nat.succ_le_succ hfirst
            · exact Nat.le_succ_of_le (ih (hparts ▸ List.mem_cons_of_mem _ h))

/-- What is enclosed is shorter than what is up to its end. -/
theorem length_lt_of_untilClosed? {depth : Nat} {ws inner : List String}
    (h : untilClosed? depth ws = some inner) : inner.length < ws.length := by
  induction ws generalizing depth inner with
  | nil => simp [untilClosed?] at h
  | cons word ws ih =>
      rw [untilClosed?] at h
      split at h
      · split at h
        · obtain rfl := Option.some.inj h
          exact Nat.succ_pos _
        · contradiction
      · obtain ⟨inner, hinner, rfl⟩ := Option.map_eq_some_iff.mp h
        exact Nat.succ_lt_succ (ih hinner)

/-- What parentheses enclose is shorter than the factor. -/
theorem length_lt_of_enclosed? {factor inner : List String} (h : enclosed? factor = some inner) :
    inner.length < factor.length := by
  cases factor with
  | nil => simp [enclosed?] at h
  | cons word rest =>
      rw [enclosed?] at h
      split at h
      · exact Nat.lt_succ_of_lt (length_lt_of_untilClosed? h)
      · contradiction

/-- A row that a search condition is asked of: its date, and which comparisons, given by their
words, hold of it. -/
structure Row where
  errorDateTime : DateTime
  holds : List String → Bool

/-- The moment that a placeholder is bound to. -/
def momentOf? (parameters : List Parameter) (name : String) : Option DateTime :=
  parameters.findSome? fun parameter =>
    match parameter with
    | .moment bound t => if bound.placeholder = name then some t else none
    | .text _ _ _ => none

/-- Whether a row meets a comparison. -/
def Row.meets (row : Row) (parameters : List Parameter) (comparison : List String) : Bool :=
  match comparison with
  | [column, operator, low, conjunction, high] =>
      if column = "T.ErrorDateTime" ∧ operator = "BETWEEN" ∧ conjunction = "AND" then
        (momentOf? parameters low).any (fun t => t ≤ row.errorDateTime) &&
          (momentOf? parameters high).any (fun t => row.errorDateTime ≤ t)
      else row.holds comparison
  | _ => row.holds comparison

/-- Whether a row satisfies a search condition: it accepts all factors of some term, where a factor
is either a search condition in parentheses or a comparison. -/
def Row.satisfies (row : Row) (parameters : List Parameter) (condition : List String) : Bool :=
  (terms condition).attach.any fun ⟨term, _⟩ => (factors term).attach.all fun ⟨factor, _⟩ =>
    match _henclosed : enclosed? factor with
    | some inner => row.satisfies parameters inner
    | none => row.meets parameters factor
termination_by condition.length
decreasing_by
  rename_i hterm hfactor
  calc inner.length < factor.length := length_lt_of_enclosed? _henclosed
    _ ≤ term.length := length_le_of_mem_divide hfactor
    _ ≤ condition.length := length_le_of_mem_divide hterm

/-- Whether a row accepts a factor. -/
def Row.accepts (row : Row) (parameters : List Parameter) (factor : List String) : Bool :=
  match enclosed? factor with
  | some inner => row.satisfies parameters inner
  | none => row.meets parameters factor

/-- Whether the search condition of a statement admits a row. -/
def Payload.admits (payload : Payload) (row : Row) : Bool :=
  row.satisfies payload.parameters (searchCondition payload.sql)

/-- A row satisfies a search condition if it accepts all factors of some term. -/
theorem Row.satisfies_eq (row : Row) (parameters : List Parameter) (condition : List String) :
    row.satisfies parameters condition =
      (terms condition).any fun term => (factors term).all (row.accepts parameters) := by
  have haccepts (factor : List String) :
      (match _h : enclosed? factor with
        | some inner => row.satisfies parameters inner
        | none => row.meets parameters factor) = row.accepts parameters factor := by
    rw [accepts]
    split <;> simp [*]
  rw [satisfies]
  simp [haccepts]

/-! ### Words -/

/-- A blank divides words. -/
theorem wordsOf_append_blank {c : Char} (hc : Text.isBlank c = true) (cs ds : List Char) :
    wordsOf (cs ++ c :: ds) = wordsOf cs ++ wordsOf ds := by
  have hspread : spread c = [c] := by
    rw [spread, if_neg]
    rintro (rfl | rfl) <;> revert hc <;> decide
  unfold wordsOf
  rw [List.flatMap_append, List.flatMap_cons, hspread, List.singleton_append,
    List.splitOnP_append_cons _ _ hc, List.filter_append, List.map_append]

/-- A character that is neither a blank nor a parenthesis, and so divides no words. -/
def IsWordCharacter (c : Char) : Prop :=
  Text.isBlank c = false ∧ c ≠ '(' ∧ c ≠ ')'

instance (c : Char) : Decidable (IsWordCharacter c) :=
  inferInstanceAs (Decidable (_ ∧ _))

/-- Characters that divide no words are one word. -/
theorem wordsOf_solid {cs : List Char} (hne : cs ≠ []) (h : ∀ c ∈ cs, IsWordCharacter c) :
    wordsOf cs = [String.ofList cs] := by
  have hspread : cs.flatMap spread = cs := by
    rw [List.flatMap_congr fun c hc => ?_, List.flatMap_singleton']
    rw [spread, if_neg (not_or.mpr (h c hc).2)]
  unfold wordsOf
  rw [hspread, List.splitOnP_eq_singleton fun c hc => (h c hc).1]
  simp [hne]

/-- A parenthesis is a word of its own, whatever stands next to it. -/
theorem wordsOf_append_parenthesis {c : Char} (hc : c = '(' ∨ c = ')') (cs ds : List Char) :
    wordsOf (cs ++ c :: ds) = wordsOf cs ++ String.singleton c :: wordsOf ds := by
  have hspread : spread c = [' ', c, ' '] := if_pos hc
  have hsolid : Text.isBlank c = false := by
    rcases hc with rfl | rfl <;> decide
  have hblank : Text.isBlank ' ' = true := Text.isBlank_space
  have hword : [c].splitOnP Text.isBlank = [[c]] :=
    List.splitOnP_eq_singleton fun d hd => List.mem_singleton.mp hd ▸ hsolid
  have hwhole : (cs.flatMap spread ++ ' ' :: ([c] ++ ' ' :: ds.flatMap spread)).splitOnP
      Text.isBlank = (cs.flatMap spread).splitOnP Text.isBlank ++
        ([[c]] ++ (ds.flatMap spread).splitOnP Text.isBlank) := by
    rw [List.splitOnP_append_cons _ _ hblank, List.splitOnP_append_cons _ _ hblank, hword]
  unfold wordsOf
  rw [List.flatMap_append, List.flatMap_cons, hspread]
  simp only [List.cons_append, List.nil_append] at hwhole ⊢
  rw [hwhole]
  simp

/-! ### Factors and terms -/

/-- The words that a search condition is divided by. -/
def reserved : List String :=
  ["AND", "OR", "BETWEEN", "GROUP"]

/-- Words that divide nothing and close every parenthesis that they open. -/
structure Plain (ws : List String) : Prop where
  undivided : ∀ word ∈ ws, word ∉ reserved
  balanced : ∀ scope : Scope, ws.foldl Scope.pass scope = scope

/-- Words of a comparison. -/
structure IsComparison (ws : List String) : Prop extends Plain ws where
  unenclosed : enclosed? ws = none

/-- Words that open and close nothing either are plain. -/
theorem plain_of_neutral {ws : List String} (h : ∀ word ∈ ws, word ∉ "(" :: ")" :: reserved) :
    Plain ws where
  undivided word hword hreserved :=
    h word hword (List.mem_cons_of_mem _ (List.mem_cons_of_mem _ hreserved))
  balanced scope := by
    induction ws with
    | nil => rfl
    | cons word ws ih =>
        have hword := h word List.mem_cons_self
        simp only [reserved, List.mem_cons, List.not_mem_nil, or_false, not_or] at hword
        have hbetween : (word == "BETWEEN") = false := by simp [hword]
        have hand : (word != "AND") = true := by simp [hword]
        have hpass : scope.pass word = scope := by
          simp [Scope.pass, depthBehind, hword, hbetween, hand]
        rw [List.foldl_cons, hpass]
        exact ih fun w hw => h w (List.mem_cons_of_mem word hw)

/-- Plain words in a row are plain. -/
theorem Plain.append {ws more : List String} (h : Plain ws) (h' : Plain more) :
    Plain (ws ++ more) where
  undivided word hword := by
    rcases List.mem_append.mp hword with hword | hword
    · exact h.undivided word hword
    · exact h'.undivided word hword
  balanced scope := by
    rw [List.foldl_append, h.balanced, h'.balanced]

/-- Plain words in parentheses are plain. -/
theorem Plain.enclose {ws : List String} (h : Plain ws) : Plain ("(" :: (ws ++ [")"])) where
  undivided word hword := by
    simp only [List.mem_cons, List.mem_append, List.not_mem_nil, or_false] at hword
    rcases hword with rfl | hword | rfl
    · decide
    · exact h.undivided word hword
    · decide
  balanced scope := by
    rw [List.foldl_cons, List.foldl_append, h.balanced]
    simp [Scope.pass, depthBehind]

/-- There is always a part. -/
theorem divide_ne_nil (separator : String) (scope : Scope) (ws : List String) :
    divide separator scope ws ≠ [] := by
  induction ws generalizing scope with
  | nil => simp [divide]
  | cons word ws ih =>
      simp only [divide]
      split
      · simp
      · simpa using ih (scope.pass word)

/-- Words without the separator belong to the first part. -/
theorem divide_append_of_not_mem {separator : String} {ws : List String} (h : separator ∉ ws)
    (scope : Scope) (rest : List String) :
    divide separator scope (ws ++ rest) =
      (divide separator (ws.foldl Scope.pass scope) rest).modifyHead (ws ++ ·) := by
  induction ws generalizing scope with
  | nil => exact (congrFun List.modifyHead_id _).symm
  | cons word ws ih =>
      rw [List.mem_cons, not_or] at h
      simp only [List.cons_append, divide]
      rw [if_neg fun hword => h.1 hword.1.symm, ih h.2, List.modifyHead_modifyHead]
      rfl

/-- Words without the separator are not divided. -/
theorem divide_of_not_mem {separator : String} {ws : List String} (h : separator ∉ ws)
    (scope : Scope) : divide separator scope ws = [ws] := by
  simpa [divide] using divide_append_of_not_mem h scope []

/-- A separator behind words that lead back to the outermost place divides. -/
theorem divide_append_separator {separator : String}
    (hseparator : Scope.outermost.pass separator = .outermost) {ws : List String} {scope : Scope}
    (hws : ws.foldl Scope.pass scope = .outermost) (rest : List String) :
    divide separator scope (ws ++ separator :: rest) =
      divide separator scope ws ++ divide separator .outermost rest := by
  induction ws generalizing scope with
  | nil =>
      obtain rfl : scope = .outermost := hws
      simp [divide, hseparator]
  | cons word ws ih =>
      simp only [List.cons_append, divide, ih hws]
      split
      · rfl
      · cases hparts : divide separator (scope.pass word) ws with
        | nil => exact absurd hparts (divide_ne_nil _ _ _)
        | cons first parts => rfl

/-! ### Conditions in parentheses -/

/-- Inside parentheses nothing is divided, up to the one that closes them. -/
theorem divide_append_closing {separator : String} {depth : Nat} {ws : List String}
    (h : untilClosed? depth (ws ++ [")"]) = some ws) (waiting : Bool) (rest : List String) :
    divide separator ⟨depth + 1, waiting⟩ (ws ++ ")" :: rest) =
      (divide separator ⟨0, waiting⟩ rest).modifyHead (ws ++ [")"] ++ ·) := by
  have hinside (depth : Nat) : (⟨depth + 1, waiting⟩ : Scope) ≠ .outermost := fun heq =>
    Nat.succ_ne_zero depth (congrArg Scope.depth heq)
  induction ws generalizing depth with
  | nil =>
      have hdepth : depth = 0 := by
        by_contra hdepth
        simp [untilClosed?, hdepth] at h
      subst hdepth
      simp [divide, Scope.pass, depthBehind, Scope.outermost]
  | cons word ws ih =>
      rw [List.cons_append, untilClosed?] at h
      split at h
      · -- what closes the parentheses is the last word
        simp at h
      · rename_i hopen
        obtain ⟨inner, hinner, heq⟩ := Option.map_eq_some_iff.mp h
        obtain rfl : inner = ws := (List.cons.inj heq).2
        have hdepth : depthBehind (depth + 1) word = depthBehind depth word + 1 := by
          unfold depthBehind
          grind
        have hpass : (⟨depth + 1, waiting⟩ : Scope).pass word =
            ⟨depthBehind depth word + 1, waiting⟩ := by
          simp [Scope.pass, hdepth]
        simp only [List.cons_append, divide]
        rw [if_neg fun hword => hinside depth hword.2, hpass, ih hinner, List.modifyHead_modifyHead]
        rfl

/-- A search condition in parentheses is not divided. -/
theorem divide_of_enclosed {separator : String} (hseparator : separator ≠ "(") {ws : List String}
    (h : enclosed? ("(" :: (ws ++ [")"])) = some ws) :
    divide separator .outermost ("(" :: (ws ++ [")"])) = ["(" :: (ws ++ [")"])] := by
  have hclosed : untilClosed? 0 (ws ++ [")"]) = some ws := h
  have hpass : Scope.outermost.pass "(" = ⟨0 + 1, false⟩ := by decide
  simp only [divide]
  rw [if_neg fun hword => hseparator hword.1.symm, hpass, divide_append_closing hclosed]
  simp [divide]

/-- A row satisfies a term with a search condition in parentheses behind it if it accepts the
factors of the term and satisfies what the parentheses enclose, whatever connectors stand there. -/
theorem Row.satisfies_append_enclosed (row : Row) (parameters : List Parameter) {term : List String}
    (hterm : term.foldl Scope.pass .outermost = .outermost) (hor : "OR" ∉ term) {ws : List String}
    (h : enclosed? ("(" :: (ws ++ [")"])) = some ws) :
    row.satisfies parameters (term ++ "AND" :: "(" :: (ws ++ [")"])) =
      ((factors term).all (row.accepts parameters) && row.satisfies parameters ws) := by
  have hlonger : (term ++ ["AND"]).foldl Scope.pass .outermost = .outermost := by
    rw [List.foldl_append, hterm]
    decide
  have hterms : terms (term ++ "AND" :: "(" :: (ws ++ [")"])) =
      [term ++ "AND" :: "(" :: (ws ++ [")"])] := by
    have hwhole := divide_append_of_not_mem (by simpa using hor : "OR" ∉ term ++ ["AND"])
      .outermost ("(" :: (ws ++ [")"]))
    rw [hlonger, divide_of_enclosed (by decide) h] at hwhole
    simpa [terms] using hwhole
  have hfactors : factors (term ++ "AND" :: "(" :: (ws ++ [")"])) =
      factors term ++ ["(" :: (ws ++ [")"])] := by
    rw [factors, divide_append_separator (by decide) hterm, divide_of_enclosed (by decide) h]
    rfl
  have haccepts : row.accepts parameters ("(" :: (ws ++ [")"])) = row.satisfies parameters ws := by
    rw [accepts, h]
  rw [row.satisfies_eq, hterms, List.any_cons, List.any_nil, Bool.or_false, hfactors,
    List.all_append, List.all_cons, List.all_nil, Bool.and_true, haccepts]

/-- Parentheses around the comparisons keep a row from outside the range out. -/
example :
    let range : DateRange := ⟨⟨2016, 1, 1, 0, 0, 0, 0, by decide, by decide⟩,
      ⟨2016, 2, 1, 0, 0, 0, 0, by decide, by decide⟩⟩
    let row : Row := ⟨⟨2017, 1, 1, 0, 0, 0, 0, by decide, by decide⟩, fun _ => true⟩
    let payload : Payload := ⟨"\n", "SELECT T.Frequency\nFROM Timeline T\n" ++
      "WHERE T.ErrorDateTime BETWEEN @FromDate AND @ToDate\n" ++
      "AND (ED.ApplicationId IN (@Param1,@Param2)\nOR T.MessageDetails = @Param3)\n" ++
      "GROUP BY T.Frequency\n", [.moment .first range.first, .moment .last range.last]⟩
    payload.admits row = false := by
  decide +kernel

/-! ### Conditions in a row -/

/-- The value of conditions in a row, each with the connector in front of it, behind a term that has
the value `term` so far. -/
def chainValue (term : Bool) : List (Connector × Bool) → Bool
  | [] => term
  | (.and, b) :: chain => chainValue (term && b) chain
  | (.or, b) :: chain => term || chainValue b chain

/-- Conditions written behind a term have the value of their chain. -/
theorem value_of_chain (accepts : List String → Bool) {term : List String}
    (hterm : term.foldl Scope.pass .outermost = .outermost) (hor : "OR" ∉ term)
    {chain : List (Connector × List String)} (hplain : ∀ link ∈ chain, Plain link.2) :
    ((terms (term ++ chain.flatMap fun link => link.1.word :: link.2)).any
        fun term => (factors term).all accepts) =
      chainValue ((factors term).all accepts) (chain.map fun link => (link.1, accepts link.2)) := by
  unfold terms factors
  induction chain generalizing term with
  | nil =>
      rw [List.flatMap_nil, List.append_nil, divide_of_not_mem hor]
      simp [chainValue]
  | cons link chain ih =>
      obtain ⟨connector, ws⟩ := link
      have hws : Plain ws := hplain (connector, ws) (by simp)
      have hrest : ∀ link ∈ chain, Plain link.2 := fun link hlink =>
        hplain link (List.mem_cons_of_mem _ hlink)
      have hfree : "OR" ∉ ws := fun hmem => hws.undivided "OR" hmem (by decide)
      have hwhole : divide "AND" .outermost ws = [ws] :=
        divide_of_not_mem (fun hmem => hws.undivided "AND" hmem (by decide)) _
      rw [List.flatMap_cons, List.map_cons]
      cases connector with
      | and =>
          -- the factors go on with those of the term
          have hlonger : (term ++ "AND" :: ws).foldl Scope.pass .outermost = .outermost := by
            rw [List.foldl_append, hterm, List.foldl_cons]
            exact hws.balanced _
          have hstep := ih hlonger (by simp [hor, hfree]) hrest
          rw [divide_append_separator (by decide) hterm, hwhole, List.all_append] at hstep
          simpa [chainValue, Connector.word] using hstep
      | or =>
          -- the term is complete, and another one begins
          have hstep := ih (hws.balanced _) hfree hrest
          rw [hwhole] at hstep
          rw [List.cons_append, Connector.word, divide_append_separator (by decide) hterm,
            divide_of_not_mem hor]
          simpa [chainValue] using congrArg ((divide "AND" .outermost term).all accepts || ·) hstep

/-- Joined by `AND` alone, all conditions count, and so does the term. -/
theorem chainValue_of_and {chain : List (Connector × Bool)} (h : ∀ link ∈ chain, link.1 = .and)
    (term : Bool) : chainValue term chain = (term && chain.all (·.2)) := by
  induction chain generalizing term with
  | nil => simp [chainValue]
  | cons link chain ih =>
      obtain ⟨connector, b⟩ := link
      obtain rfl : connector = .and := h (connector, b) (by simp)
      rw [chainValue, ih fun link hlink => h link (List.mem_cons_of_mem _ hlink), List.all_cons,
        Bool.and_assoc]

/-- Behind an `OR` it does not matter what stands in front of it. -/
theorem chainValue_of_or {chain : List (Connector × Bool)} (hor : ¬ ∀ link ∈ chain, link.1 = .and)
    (htrue : ∀ link ∈ chain, link.2 = true) (term : Bool) : chainValue term chain = true := by
  induction chain generalizing term with
  | nil => simp at hor
  | cons link chain ih =>
      obtain ⟨connector, b⟩ := link
      obtain ⟨rfl, hrest⟩ : b = true ∧ ∀ link ∈ chain, link.2 = true :=
        List.forall_mem_cons.mp htrue
      by_cases hand : ∀ link ∈ chain, link.1 = .and
      · cases connector with
        | and =>
            rw [List.forall_mem_cons] at hor
            exact absurd ⟨rfl, hand⟩ hor
        | or =>
            rw [chainValue, chainValue_of_and hand, Bool.true_and, Bool.or_eq_true]
            exact .inr (List.all_eq_true.mpr hrest)
      · cases connector with
        | and => exact ih hand hrest _
        | or => rw [chainValue, ih hand hrest, Bool.or_true]

/-- Whether a row accepts a comparison that bounds no date is a property of the row. -/
theorem Row.accepts_of_isComparison (row : Row) (parameters : List Parameter)
    {comparison : List String} (h : IsComparison comparison) :
    row.accepts parameters comparison = row.holds comparison := by
  rw [accepts, h.unenclosed]
  show row.meets parameters comparison = row.holds comparison
  unfold meets
  split
  · rename_i column operator low conjunction high
    rw [if_neg]
    rintro ⟨-, rfl, -⟩
    exact h.undivided "BETWEEN" (by simp) (by decide)
  · rfl

end Sql

end ErrorQuery
