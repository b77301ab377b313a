import ErrorQuery.Proofs.Fallible
import ErrorQuery.Query.Reading

/-!
# The reading of a query, step by step

`Reading.Step` lists what reading one token can do, and `Reading.Reads` what reading several can.
A sequence of tokens denotes a query exactly if reading the tokens before its first end leads to a
reading that may end there (`Query.ofTokens_eq_ok_iff`).
-/

set_option autoImplicit false

namespace ErrorQuery

/-- The tokens before the first end of a query. -/
def Token.beforeEnd (tokens : List Token) : List Token :=
  tokens.takeWhile fun token => token.kind != .terminator

namespace Reading

/-- What one token does to a reading. -/
inductive Step : Reading → Token → Reading → Prop where
  | matching {token : Token} : token.kind = .matching → Step .start token (.field [])
  | field {token : Token} {done : List Condition} {f : Field} :
      token.kind = .field f → Step (.field done) token (.operator done f)
  | single {token : Token} {done : List Condition} {f : Field} {op : Operator} :
      token.kind = .operator op → op.takesList = false →
      Step (.operator done f) token (.text done f op)
  | list {token : Token} {done : List Condition} {f : Field} {op : Operator} :
      token.kind = .operator op → op.takesList = true →
      Step (.operator done f) token (.opening done f op)
  | text {token : Token} {done : List Condition} {f : Field} {op : Operator} :
      token.kind = .text → Step (.text done f op) token (.tail done f op (.single token.value))
  | opening {token : Token} {done : List Condition} {f : Field} {op : Operator} :
      token.kind = .opening → Step (.opening done f op) token (.element done f op [])
  | element {token : Token} {done : List Condition} {f : Field} {op : Operator}
      {values : List String} :
      token.kind = .text →
      Step (.element done f op values) token (.separator done f op (values ++ [token.value]))
  | comma {token : Token} {done : List Condition} {f : Field} {op : Operator}
      {values : List String} :
      token.kind = .comma →
      Step (.separator done f op values) token (.element done f op values)
  | closing {token : Token} {done : List Condition} {f : Field} {op : Operator}
      {values : List String} :
      token.kind = .closing →
      Step (.separator done f op values) token (.tail done f op (.list values))
  | connector {token : Token} {done : List Condition} {f : Field} {op : Operator}
      {operand : Operand} {c : Connector} :
      token.kind = .connector c →
      Step (.tail done f op operand) token (.field (done ++ [⟨f, op, operand, some c⟩]))
  | between {token : Token} {done : List Condition} {f : Field} {op : Operator}
      {operand : Operand} :
      token.kind = .between →
      Step (.tail done f op operand) token (.first (done ++ [⟨f, op, operand, none⟩]))
  | first {token : Token} {conditions : List Condition} {t : DateTime} :
      token.kind = .dateTime → DateTime.ofLiteral? token.value = some t →
      Step (.first conditions) token (.conjunction conditions t)
  | conjunction {token : Token} {conditions : List Condition} {t : DateTime} :
      token.kind = .connector .and →
      Step (.conjunction conditions t) token (.last conditions t)
  | last {token : Token} {conditions : List Condition} {t u : DateTime} :
      token.kind = .dateTime → DateTime.ofLiteral? token.value = some u →
      Step (.last conditions t) token (.limit conditions ⟨t, u⟩)
  | limit {token : Token} {conditions : List Condition} {range : DateRange} :
      token.kind = .limit → Step (.limit conditions range) token (.number conditions range)
  | number {token : Token} {conditions : List Condition} {range : DateRange} {n : UInt32} :
      token.kind = .number → Limit.read? token.value = some n →
      Step (.number conditions range) token (.complete ⟨range, some n, conditions⟩)

/-- Reading a token succeeds exactly in these ways. -/
theorem step_eq_ok_iff {reading next : Reading} {token : Token} :
    reading.step token = .ok next ↔ Step reading token next := by
  constructor
  · intro h
    unfold step at h
    split at h
    case h_16 => contradiction
    case h_3 op hkind =>
      cases hop : op.takesList with
      | false =>
          simp only [hop, Bool.false_eq_true, if_false] at h
          cases h
          exact .single hkind hop
      | true =>
          simp only [hop, if_true] at h
          cases h
          exact .list hkind hop
    -- the literals whose values are read
    case h_11 | h_13 | h_15 =>
      split at h
      · cases h
        constructor <;> assumption
      · contradiction
    all_goals
      cases h
      constructor
      assumption
  · intro h
    cases h with
    | _ => simp [step, *]

/-- What several tokens do to a reading. -/
inductive Reads : Reading → List Token → Reading → Prop where
  | nil {reading : Reading} : Reads reading [] reading
  | cons {reading next final : Reading} {token : Token} {tokens : List Token} :
      Step reading token next → Reads next tokens final → Reads reading (token :: tokens) final

namespace Reads

/-- Tokens in a row are read one behind the other. -/
theorem append {reading middle final : Reading} {tokens more : List Token}
    (h : Reads reading tokens middle) (h' : Reads middle more final) :
    Reads reading (tokens ++ more) final := by
  induction h with
  | nil => exact h'
  | cons hstep _ ih => exact .cons hstep (ih h')

/-- A single token is read in one step. -/
theorem single {reading next : Reading} {token : Token} (h : Step reading token next) :
    Reads reading [token] next :=
  .cons h .nil

/-- The first token is read first. -/
theorem exists_of_cons {reading final : Reading} {token : Token} {tokens : List Token}
    (h : Reads reading (token :: tokens) final) :
    ∃ next, Step reading token next ∧ Reads next tokens final := by
  cases h with
  | cons hstep hrest => exact ⟨_, hstep, hrest⟩

end Reads

/-- A reading that comes to a query by way of the given tokens. -/
def Completes (reading : Reading) (tokens : List Token) (query : Query) : Prop :=
  ∃ final, Reads reading tokens final ∧ final.finish = .ok query

/-- Nothing completes a query where it may end, and only there. -/
theorem completes_nil_iff {reading : Reading} {query : Query} :
    Completes reading [] query ↔ reading.finish = .ok query := by
  constructor
  · rintro ⟨final, hreads, hfinish⟩
    cases hreads
    exact hfinish
  · exact fun h => ⟨reading, .nil, h⟩

/-- The first token leads to a reading that comes to the query. -/
theorem completes_cons_iff {reading : Reading} {token : Token} {tokens : List Token}
    {query : Query} :
    Completes reading (token :: tokens) query ↔
      ∃ next, Step reading token next ∧ Completes next tokens query := by
  constructor
  · rintro ⟨final, hreads, hfinish⟩
    obtain ⟨next, hstep, hrest⟩ := hreads.exists_of_cons
    exact ⟨next, hstep, final, hrest, hfinish⟩
  · rintro ⟨next, hstep, final, hrest, hfinish⟩
    exact ⟨final, .cons hstep hrest, hfinish⟩

/-- Running over tokens succeeds exactly if those before the first end lead to a query. -/
theorem run_eq_ok_iff {reading : Reading} {position : Nat} {tokens : List Token} {query : Query} :
    reading.run position tokens = .ok query ↔
      Completes reading (Token.beforeEnd tokens) query := by
  induction tokens generalizing reading position with
  | nil => rw [run, mapError_eq_ok_iff, Token.beforeEnd, List.takeWhile_nil, completes_nil_iff]
  | cons token tokens ih =>
      rw [run]
      by_cases hkind : token.kind = .terminator
      · have hbefore : Token.beforeEnd (token :: tokens) = [] := by
          simp [Token.beforeEnd, hkind]
        rw [if_pos hkind, mapError_eq_ok_iff, hbefore, completes_nil_iff]
      · have hbefore : Token.beforeEnd (token :: tokens) = token :: Token.beforeEnd tokens := by
          simp [Token.beforeEnd, hkind]
        rw [if_neg hkind, hbefore, completes_cons_iff]
        cases hstep : reading.step token with
        | ok next =>
            simp only [ih]
            constructor
            · exact fun h => ⟨next, step_eq_ok_iff.mp hstep, h⟩
            · rintro ⟨next', hnext', h⟩
              rw [step_eq_ok_iff.mpr hnext', Except.ok.injEq] at hstep
              exact hstep ▸ h
        | error e =>
            simp only [reduceCtorEq, false_iff, not_exists, not_and]
            intro next hnext
            rw [step_eq_ok_iff.mpr hnext] at hstep
            contradiction

end Reading

/-- Tokens denote a query exactly if reading those before the first end leads to it. -/
theorem Query.ofTokens_eq_ok_iff {tokens : List Token} {query : Query} :
    Query.ofTokens tokens = .ok query ↔
      Reading.start.Completes (Token.beforeEnd tokens) query :=
  Reading.run_eq_ok_iff

end ErrorQuery
