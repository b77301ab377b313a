import ErrorQuery.Proofs.Sql.Lines

/-!
# Why a query has no statement

A query is checked condition by condition: the operand of a condition must suit its operator, and
the condition must be joined to the one behind it, if there is one.  `checks` lists this in the order
in which it counts.  A query has a statement exactly if all its checks hold, as those of a query that
a sentence denotes do, and else the first that does not hold is reported
(`first_fault_is_reported`).

The connector of a condition is missed only when the next one is to be written, so the writing of
conditions is followed from any of them on, with the word in front of it at hand
(`appendConditions_eq_error_iff`).
-/

set_option autoImplicit false

namespace ErrorQuery.Sql

/-! ### Checks -/

/-- Something that is asked of a condition. -/
inductive Check where
  /-- The operand of the condition suits its operator. -/
  | shape (condition : Condition)
  /-- The condition, with its number counted from 0, is joined to the next. -/
  | connector (index : Nat) (condition : Condition)

namespace Check

/-- Whether a check holds. -/
def Holds : Check → Prop
  | .shape condition => condition.Suited
  | .connector _ condition => condition.connector.isSome = true

instance : DecidablePred Holds
  | .shape condition => inferInstanceAs (Decidable condition.Suited)
  | .connector _ condition => inferInstanceAs (Decidable (condition.connector.isSome = true))

/-- What is reported if a check does not hold. -/
def fault : Check → GenerationError
  | .shape condition => .unsupported condition.operator condition.operand
  | .connector index _ => .missingConnector index

end Check

/-- The checks of conditions in order, the first of which has the number `index`; the last condition
needs no connector. -/
def checks (index : Nat) : List Condition → List Check
  | [] => []
  | [condition] => [.shape condition]
  | condition :: next :: conditions =>
      .shape condition :: .connector index condition :: checks (index + 1) (next :: conditions)

/-- What the first check reports that does not hold. -/
def firstFault? (checks : List Check) : Option GenerationError :=
  (checks.find? fun check => !decide check.Holds).map Check.fault

/-- A check that holds is passed over. -/
theorem firstFault?_cons_of_holds {check : Check} (h : check.Holds) (checks : List Check) :
    firstFault? (check :: checks) = firstFault? checks := by
  rw [firstFault?, List.find?_cons_of_neg (by simp [h])]
  rfl

/-- A check that does not hold is the first fault. -/
theorem firstFault?_cons_of_not_holds {check : Check} (h : ¬ check.Holds) (checks : List Check) :
    firstFault? (check :: checks) = some check.fault := by
  rw [firstFault?, List.find?_cons_of_pos (by simp [h])]
  rfl

/-- There is no fault exactly if all checks hold. -/
theorem firstFault?_eq_none_iff {checks : List Check} :
    firstFault? checks = none ↔ ∀ check ∈ checks, check.Holds := by
  simp [firstFault?]

/-- The first fault is that of the first check that does not hold. -/
theorem firstFault?_eq_some_iff {checks : List Check} {e : GenerationError} :
    firstFault? checks = some e ↔
      ∃ before check after, checks = before ++ check :: after ∧ (∀ c ∈ before, c.Holds) ∧
        ¬ check.Holds ∧ e = check.fault := by
  rw [firstFault?, Option.map_eq_some_iff]
  constructor
  · rintro ⟨check, hfind, rfl⟩
    obtain ⟨hcheck, before, after, hchecks, hbefore⟩ := List.find?_eq_some_iff_append.mp hfind
    refine ⟨before, check, after, hchecks, ?_, by simpa using hcheck, rfl⟩
    intro c hc
    simpa using hbefore c hc
  · rintro ⟨before, check, after, hchecks, hbefore, hcheck, rfl⟩
    refine ⟨check, List.find?_eq_some_iff_append.mpr ⟨by simpa using hcheck, before, after, hchecks,
      ?_⟩, rfl⟩
    intro c hc
    simpa using hbefore c hc

/-! ### Faults of conditions -/

namespace Payload

/-- A condition of the right shape gets its line. -/
theorem exists_appendCondition {condition : Condition} (h : (Check.shape condition).Holds)
    (p : Payload) (connector : Connector) :
    ∃ next, p.appendCondition connector condition = .ok next := by
  rw [appendCondition, frame?_eq_some_iff.mpr ⟨h, rfl⟩]
  exact ⟨_, rfl⟩

/-- A condition of the wrong shape gets its fault instead of a line. -/
theorem appendCondition_of_not_suited {condition : Condition}
    (h : ¬ (Check.shape condition).Holds) (p : Payload) (connector : Connector) :
    p.appendCondition connector condition = .error (Check.shape condition).fault := by
  have hframe : frame? condition.operator condition.operand = none := by
    rw [Option.eq_none_iff_forall_ne_some]
    intro frame hframe
    exact h (frame?_eq_some_iff.mp hframe).1
  rw [appendCondition, hframe]
  rfl

/-- Conditions behind a word fail at the first of their checks that does not hold. -/
theorem appendConditions_eq_error_iff {p : Payload} {connector : Connector} {index : Nat}
    {conditions : List Condition} {e : GenerationError} :
    p.appendConditions (some connector) index conditions = .error e ↔
      firstFault? (checks index conditions) = some e := by
  fun_induction checks index conditions generalizing p connector with
  | case1 index => simp [appendConditions, firstFault?]
  | case2 index condition =>
      by_cases hsuited : (Check.shape condition).Holds
      · obtain ⟨next, hnext⟩ := exists_appendCondition hsuited p connector
        rw [firstFault?_cons_of_holds hsuited]
        simp [appendConditions, hnext, firstFault?]
      · rw [firstFault?_cons_of_not_holds hsuited]
        simp [appendConditions, appendCondition_of_not_suited hsuited]
  | case3 index condition next conditions ih =>
      by_cases hsuited : (Check.shape condition).Holds
      · obtain ⟨written, hwritten⟩ := exists_appendCondition hsuited p connector
        rw [firstFault?_cons_of_holds hsuited, appendConditions, hwritten]
        cases hconnector : condition.connector with
        | none =>
            -- the missing word is noticed in front of the next condition
            rw [firstFault?_cons_of_not_holds (by simp [Check.Holds, hconnector])]
            simp [appendConditions, Check.fault]
        | some word =>
            rw [firstFault?_cons_of_holds (by simp [Check.Holds, hconnector])]
            exact ih
      · rw [firstFault?_cons_of_not_holds hsuited]
        simp [appendConditions, appendCondition_of_not_suited hsuited]

/-- The connector of the last condition is not looked at. -/
theorem appendConditions_last (p : Payload) (first : Option Connector) (index : Nat)
    (conditions : List Condition) (last : Condition) (connector : Option Connector) :
    p.appendConditions first index (conditions ++ [{ last with connector := connector }]) =
      p.appendConditions first index (conditions ++ [last]) := by
  induction conditions generalizing p first index with
  | nil =>
      cases first with
      | none => rfl
      | some word =>
          simp only [List.nil_append, appendConditions]
          rfl
  | cons condition conditions ih =>
      cases first with
      | none => rfl
      | some word =>
          simp only [List.cons_append, appendConditions, ih]

end Payload

/-! ### Faults of a query -/

/-- A query is refused exactly with the first fault of its checks. -/
theorem generate_eq_error_iff {lineEnding : LineEnding} {query : Query} {e : GenerationError} :
    generate lineEnding query = .error e ↔
      firstFault? (checks 0 query.conditions) = some e := by
  rw [generate]
  cases happend : Payload.appendConditions _ (some .and) 0 query.conditions with
  | error fault =>
      have hfault := Payload.appendConditions_eq_error_iff.mp happend
      simp [hfault]
  | ok p =>
      have hnone : firstFault? (checks 0 query.conditions) ≠ some e := by
        intro hfault
        rw [Payload.appendConditions_eq_error_iff.mpr hfault] at happend
        contradiction
      simp [hnone]

/-- A query has a statement exactly if all its checks hold. -/
theorem exists_generate_iff {lineEnding : LineEnding} {query : Query} :
    (∃ payload, generate lineEnding query = .ok payload) ↔
      ∀ check ∈ checks 0 query.conditions, check.Holds := by
  rw [← firstFault?_eq_none_iff]
  cases hgenerate : generate lineEnding query with
  | error e => simp [generate_eq_error_iff.mp hgenerate]
  | ok payload =>
      have hnone : firstFault? (checks 0 query.conditions) = none := by
        rw [Option.eq_none_iff_forall_ne_some]
        intro e hfault
        rw [← @generate_eq_error_iff lineEnding, hgenerate] at hfault
        contradiction
      simp [hnone]

/-- Conditions that are joined to each other and whose operands suit their operators pass their
checks. -/
theorem holds_of_joined {conditions : List Condition} (hjoined : Joined conditions)
    (hsuited : ∀ condition ∈ conditions, condition.Suited) (index : Nat) :
    ∀ check ∈ checks index conditions, check.Holds := by
  fun_induction checks index conditions with
  | case1 index => simp
  | case2 index condition =>
      rw [List.forall_mem_singleton]
      exact hsuited condition (by simp)
  | case3 index condition next conditions ih =>
      obtain ⟨hfirst, hothers⟩ := List.forall_mem_cons.mp hsuited
      rw [List.forall_mem_cons, List.forall_mem_cons]
      exact ⟨hfirst, hjoined.1, ih hjoined.2 hothers⟩

/-- A query that a sentence denotes has a statement. -/
theorem exists_generate_of_sentence {tokens : List Token} {query : Query}
    (h : Grammar.Sentence tokens query) (lineEnding : LineEnding) :
    ∃ payload, generate lineEnding query = .ok payload := by
  obtain ⟨chain, hchain⟩ := h.chain
  rw [exists_generate_iff]
  exact holds_of_joined hchain.conditions_joined hchain.conditions_suited 0

/-- A query has a statement exactly if all its checks hold; else the first check that does not hold
is reported.  A query without conditions has a statement, and the connector of the last condition
changes nothing. -/
theorem first_fault_is_reported (lineEnding : LineEnding) (query : Query) :
    ((∃ payload, generate lineEnding query = .ok payload) ↔
      ∀ check ∈ checks 0 query.conditions, check.Holds) ∧
    (∀ e, generate lineEnding query = .error e ↔
      ∃ before check after, checks 0 query.conditions = before ++ check :: after ∧
        (∀ c ∈ before, c.Holds) ∧ ¬ check.Holds ∧ e = check.fault) ∧
    (∃ payload, generate lineEnding { query with conditions := [] } = .ok payload) ∧
    ∀ (conditions : List Condition) (last : Condition) (connector : Option Connector),
      generate lineEnding
          { query with conditions := conditions ++ [{ last with connector := connector }] } =
        generate lineEnding { query with conditions := conditions ++ [last] } := by
  refine ⟨exists_generate_iff, ?_, ?_, ?_⟩
  · intro e
    rw [generate_eq_error_iff, firstFault?_eq_some_iff]
  · rw [exists_generate_iff]
    simp [checks]
  · intro conditions last connector
    simp only [generate, Payload.appendConditions_last]

/-- Of a missing connector and the operand of the condition behind it that does not suit its
operator, the connector is reported. -/
theorem first_fault_is_reported_of_two :
    ∃ query : Query, query.conditions = [⟨.application, .equals, .single "a", some .or⟩,
        ⟨.message, .noneOf, .list ["b"], none⟩, ⟨.stackFrame, .oneOf, .list [], none⟩] ∧
      generate .crlf query = .error (.missingConnector 1) := by
  let query : Query := ⟨⟨⟨2016, 1, 1, 0, 0, 0, 0, by decide, by decide⟩,
    ⟨2016, 2, 1, 0, 0, 0, 0, by decide, by decide⟩⟩, none,
    [⟨.application, .equals, .single "a", some .or⟩, ⟨.message, .noneOf, .list ["b"], none⟩,
      ⟨.stackFrame, .oneOf, .list [], none⟩]⟩
  have hchecks : checks 0 query.conditions = (checks 0 query.conditions).take 3 ++
      .connector 1 ⟨.message, .noneOf, .list ["b"], none⟩ ::
        [.shape ⟨.stackFrame, .oneOf, .list [], none⟩] := rfl
  refine ⟨query, rfl, ((first_fault_is_reported .crlf query).2.1 _).mpr ⟨_, _, _, hchecks, ?_⟩⟩
  decide

end ErrorQuery.Sql
