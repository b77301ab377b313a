import ErrorQuery.Proofs.DateTime.Literal
import ErrorQuery.Proofs.Query.Grammar

/-!
# Well-formed queries

A query is well formed if it could have been written down: its conditions are joined to each
other, each operand suits its operator, no text contains a quote, and both ends of the date range
are moments of four-digit years and whole seconds.  What the conditions of a sentence look like is
seen from the grammar alone; that the texts and the moments can be written needs the text that the
tokens were made from.
-/

set_option autoImplicit false

namespace ErrorQuery

/-- Every condition but the last is joined to the next, the last to none, and there is one. -/
def Joined : List Condition → Prop
  | [] => False
  | [condition] => condition.connector = none
  | condition :: next :: conditions =>
      condition.connector.isSome = true ∧ Joined (next :: conditions)

/-- A single text for a comparison with one, a list of at least one text for the others. -/
def Condition.Suited (condition : Condition) : Prop :=
  match condition.operand with
  | .single _ => condition.operator ∈ [Operator.equals, .notEquals, .like, .notLike]
  | .list values => condition.operator ∈ [Operator.oneOf, .noneOf] ∧ values ≠ []

/-- No text of the condition contains a quote. -/
def Condition.Unquoted (condition : Condition) : Prop :=
  ∀ value ∈ condition.operand.values, '\'' ∉ value.toList

/-- A query that can be written down. -/
structure Query.WellFormed (query : Query) : Prop where
  joined : Joined query.conditions
  suited : ∀ condition ∈ query.conditions, condition.Suited
  unquoted : ∀ condition ∈ query.conditions, condition.Unquoted
  first : query.range.first.Writable
  last : query.range.last.Writable

instance decidableJoined : DecidablePred Joined
  | [] => inferInstanceAs (Decidable False)
  | [condition] => inferInstanceAs (Decidable (condition.connector = none))
  | condition :: next :: conditions =>
      have := decidableJoined (next :: conditions)
      inferInstanceAs (Decidable (condition.connector.isSome = true ∧ Joined (next :: conditions)))

instance : DecidablePred Condition.Suited
  | ⟨_, operator, .single _, _⟩ =>
      inferInstanceAs (Decidable (operator ∈ [Operator.equals, .notEquals, .like, .notLike]))
  | ⟨_, operator, .list values, _⟩ =>
      inferInstanceAs (Decidable (operator ∈ [Operator.oneOf, .noneOf] ∧ values ≠ []))

instance : DecidablePred Condition.Unquoted := fun condition =>
  inferInstanceAs (Decidable (∀ value ∈ condition.operand.values, '\'' ∉ value.toList))

instance : DecidablePred DateTime.Writable := fun t =>
  inferInstanceAs (Decidable ((0 ≤ t.year ∧ t.year ≤ 9999) ∧ t.nano = 0))

instance : DecidablePred Query.WellFormed := fun query =>
  decidable_of_iff
    (Joined query.conditions ∧ (∀ condition ∈ query.conditions, condition.Suited) ∧
      (∀ condition ∈ query.conditions, condition.Unquoted) ∧ query.range.first.Writable ∧
      query.range.last.Writable)
    ⟨fun ⟨hjoined, hsuited, hunquoted, hfirst, hlast⟩ =>
      ⟨hjoined, hsuited, hunquoted, hfirst, hlast⟩,
      fun h => ⟨h.joined, h.suited, h.unquoted, h.first, h.last⟩⟩

/-- A condition with a connector is joined to those behind it. -/
theorem joined_cons {condition : Condition} {conditions : List Condition}
    (hconnector : condition.connector.isSome = true) (h : Joined conditions) :
    Joined (condition :: conditions) := by
  cases conditions with
  | nil => contradiction
  | cons next conditions => exact ⟨hconnector, h⟩

namespace Grammar

/-- A list has at least one text. -/
theorem Texts.ne_nil {tokens : List Token} {values : List String} (h : Texts tokens values) :
    values ≠ [] := by
  cases h <;> simp

/-- The operand of a comparison suits its operator. -/
theorem Comparison.suited {tokens : List Token} {f : Field} {op : Operator} {operand : Operand}
    (h : Comparison tokens f op operand) (connector : Option Connector) :
    (⟨f, op, operand, connector⟩ : Condition).Suited := by
  cases h with
  | single _ _ hop _ => exact hop
  | list _ _ hop _ htexts _ => exact ⟨hop, htexts.ne_nil⟩

/-- The conditions of a chain are joined to each other. -/
theorem Chain.conditions_joined {tokens : List Token} {conditions : List Condition}
    (h : Chain tokens conditions) : Joined conditions := by
  induction h with
  | last _ => rfl
  | joined _ _ _ ih => exact joined_cons rfl ih

/-- The operands of a chain suit their operators. -/
theorem Chain.conditions_suited {tokens : List Token} {conditions : List Condition}
    (h : Chain tokens conditions) : ∀ condition ∈ conditions, condition.Suited := by
  induction h with
  | last hcomparison =>
      intro condition hmem
      rw [List.mem_singleton] at hmem
      rw [hmem]
      exact hcomparison.suited none
  | joined hcomparison _ _ ih =>
      intro condition hmem
      rcases List.mem_cons.mp hmem with rfl | hmem
      · exact hcomparison.suited _
      · exact ih condition hmem

/-- A sentence has a chain of conditions. -/
theorem Sentence.chain {tokens : List Token} {query : Query} (h : Sentence tokens query) :
    ∃ chain, Chain chain query.conditions := by
  cases h with
  | mk _ hchain _ _ => exact ⟨_, hchain⟩

/-- Both ends of the range are denoted by moments among the tokens. -/
theorem Sentence.moments {tokens : List Token} {query : Query} (h : Sentence tokens query)
    {t : DateTime} (ht : t = query.range.first ∨ t = query.range.last) :
    ∃ token ∈ tokens, token.kind = .dateTime ∧ DateTime.ofLiteral? token.value = some t := by
  cases h with
  | mk _ _ hrange _ =>
      cases hrange with
      | @mk _ first _ last _ _ _ hfirst hdenotes _ hlast hdenotes' =>
          rcases ht with rfl | rfl
          · exact ⟨first, by simp, hfirst, hdenotes⟩
          · exact ⟨last, by simp, hlast, hdenotes'⟩

end Grammar

end ErrorQuery
