import ErrorQuery.Proofs.DateTime.Literal
import ErrorQuery.Proofs.Query.Steps
import Mathlib.Data.List.TakeWhile

/-!
# The first token that cannot continue a query

A reading fails at the first token that it rejects (`Reading.run_eq_error_iff`), and what it has read
before that token does not depend on what stands behind it.  No reading is a dead end by itself: from
every stage some tokens lead to a query (`Reading.viable`).  So the token that an error reports is
the first one with which no query can go on (`errors_mark_dead_ends`).
-/

set_option autoImplicit false

namespace ErrorQuery

/-- Where a sequence of tokens ends: behind its last token, or at the given byte if there is none. -/
def Token.endOf (position : Nat) (tokens : List Token) : Nat :=
  (tokens.getLast?.map (·.span.stop)).getD position

/-- Tokens end where the last of them does. -/
theorem Token.endOf_cons (position : Nat) (token : Token) (tokens : List Token) :
    endOf position (token :: tokens) = endOf token.span.stop tokens := by
  cases tokens with
  | nil => rfl
  | cons next tokens =>
      rw [endOf, endOf, List.getLast?_cons_cons, List.getLast?_cons]
      rfl

namespace Reading

/-! ### Where a reading fails -/

/-- The token, possibly the end of the query, cannot follow; `expected` could have stood in its
place. -/
def Rejects (reading : Reading) (token : Token) (expected : Expectation) : Prop :=
  if token.kind = .terminator then reading.finish = .error expected
  else reading.step token = .error expected

/-- The end of a query is not read like a token. -/
theorem Step.kind_ne_terminator {reading next : Reading} {token : Token}
    (h : Step reading token next) : token.kind ≠ .terminator := by
  cases h <;> simp [*]

/-- Among tokens that are read there is no end. -/
theorem Reads.kind_ne_terminator {reading final : Reading} {tokens : List Token}
    (h : Reads reading tokens final) : ∀ token ∈ tokens, token.kind ≠ .terminator := by
  induction h with
  | nil => simp
  | cons hstep _ ih =>
      intro token htoken
      rcases List.mem_cons.mp htoken with rfl | htoken
      · exact hstep.kind_ne_terminator
      · exact ih token htoken

/-- A reading that rejects the next token fails with it. -/
theorem run_cons_of_rejects {reading : Reading} {token : Token} {expected : Expectation}
    (h : reading.Rejects token expected) (position : Nat) (tokens : List Token) :
    reading.run position (token :: tokens) = .error ⟨expected, token⟩ := by
  rw [Rejects] at h
  rw [run]
  split at h
  · rename_i hend
    rw [if_pos hend, h]
    rfl
  · rename_i hend
    rw [if_neg hend, h]

/-- What has been read leads to the stage from which the rest is read. -/
theorem Reads.run_append {reading middle : Reading} {before : List Token}
    (h : Reads reading before middle) (position : Nat) (rest : List Token) :
    reading.run position (before ++ rest) = middle.run (Token.endOf position before) rest := by
  induction h generalizing position with
  | nil => rfl
  | @cons reading next final token tokens hstep _ ih =>
      rw [List.cons_append, run, if_neg hstep.kind_ne_terminator, step_eq_ok_iff.mpr hstep,
        Token.endOf_cons]
      exact ih token.span.stop

/-- A run fails exactly if the tokens before the one that it reports are read and that one is
rejected; a sequence without an end is rejected at an end placed behind its last token. -/
theorem run_eq_error_iff {reading : Reading} {position : Nat} {tokens : List Token}
    {e : SyntaxError} :
    reading.run position tokens = .error e ↔
      ∃ before middle, Reads reading before middle ∧ middle.Rejects e.token e.expected ∧
        ((∃ after, tokens = before ++ e.token :: after) ∨
          (tokens = before ∧ e.token = .terminator (Token.endOf position before))) := by
  constructor
  · intro h
    induction tokens generalizing reading position with
    | nil =>
        rw [run, mapError_eq_error_iff] at h
        obtain ⟨expected, hfinish, rfl⟩ := h
        refine ⟨[], reading, .nil, ?_, .inr ⟨rfl, rfl⟩⟩
        rwa [Rejects, if_pos (Token.terminator_kind _)]
    | cons token tokens ih =>
        rw [run] at h
        split at h
        · -- the token is the end of the query
          rename_i hend
          rw [mapError_eq_error_iff] at h
          obtain ⟨expected, hfinish, rfl⟩ := h
          exact ⟨[], reading, .nil, by rwa [Rejects, if_pos hend], .inl ⟨tokens, rfl⟩⟩
        · rename_i hend
          split at h
          · -- the token is read, and the run fails behind it
            rename_i next hstep
            obtain ⟨before, middle, hreads, hrejects, hplace⟩ := ih h
            refine ⟨token :: before, middle, .cons (step_eq_ok_iff.mp hstep) hreads, hrejects, ?_⟩
            rw [Token.endOf_cons]
            rcases hplace with ⟨after, rfl⟩ | ⟨rfl, htoken⟩
            · exact .inl ⟨after, rfl⟩
            · exact .inr ⟨rfl, htoken⟩
          · rename_i expected hstep
            obtain rfl := Except.error.inj h
            exact ⟨[], reading, .nil, by rwa [Rejects, if_neg hend], .inl ⟨tokens, rfl⟩⟩
  · rintro ⟨before, middle, hreads, hrejects, ⟨after, rfl⟩ | ⟨rfl, htoken⟩⟩
    · rw [hreads.run_append, run_cons_of_rejects hrejects]
    · rw [← List.append_nil tokens, hreads.run_append, run, mapError_eq_error_iff]
      rw [Rejects, htoken, if_pos (Token.terminator_kind _)] at hrejects
      exact ⟨e.expected, hrejects, htoken ▸ rfl⟩

/-! ### Every reading may still succeed -/

/-- Some tokens lead from the reading to a query. -/
def Viable (reading : Reading) : Prop :=
  ∃ tokens query, reading.Completes tokens query

/-- A reading is viable if some token leads to one that is; where the token stands in the text makes
no difference. -/
theorem Viable.of_step {reading next : Reading} {kind : Kind} (value : String)
    (hstep : Step reading ⟨kind, value, ⟨0, 0⟩⟩ next) (h : next.Viable) : reading.Viable := by
  obtain ⟨tokens, query, hcompletes⟩ := h
  exact ⟨_ :: tokens, query, completes_cons_iff.mpr ⟨next, hstep, hcompletes⟩⟩

/-- Every reading is viable.  Going back from the end of a query, each stage has a token that leads
to a stage behind it. -/
theorem viable (reading : Reading) : reading.Viable := by
  obtain ⟨moment, m, hmoment⟩ : ∃ moment m, DateTime.ofLiteral? moment = some m :=
    ⟨_, ⟨2000, 1, 1, 0, 0, 0, 0, by decide, by decide⟩,
      DateTime.ofLiteral?_literal ⟨by decide, rfl⟩⟩
  have hnumber : Limit.read? "1" = some 1 := by decide
  -- from the last stage back: each is one token away from one that is viable
  have hlimit (conditions : List Condition) (range : DateRange) :
      (limit conditions range).Viable := ⟨[], _, completes_nil_iff.mpr rfl⟩
  have hlast (conditions : List Condition) (t : DateTime) : (last conditions t).Viable :=
    .of_step moment (.last rfl hmoment) (hlimit conditions ⟨t, m⟩)
  have hconjunction (conditions : List Condition) (t : DateTime) :
      (conjunction conditions t).Viable :=
    .of_step "and" (.conjunction rfl) (hlast conditions t)
  have hfirst (conditions : List Condition) : (first conditions).Viable :=
    .of_step moment (.first rfl hmoment) (hconjunction conditions m)
  have htail (done : List Condition) (f : Field) (op : Operator) (operand : Operand) :
      (tail done f op operand).Viable :=
    .of_step "between" (.between rfl) (hfirst _)
  have hseparator (done : List Condition) (f : Field) (op : Operator) (values : List String) :
      (separator done f op values).Viable :=
    .of_step ")" (.closing rfl) (htail done f op _)
  have helement (done : List Condition) (f : Field) (op : Operator) (values : List String) :
      (element done f op values).Viable :=
    .of_step "" (.element rfl) (hseparator done f op _)
  have htext (done : List Condition) (f : Field) (op : Operator) : (text done f op).Viable :=
    .of_step "" (.text rfl) (htail done f op _)
  have hoperator (done : List Condition) (f : Field) : (operator done f).Viable :=
    .of_step "=" (.single rfl rfl) (htext done f .equals)
  have hfield (done : List Condition) : (field done).Viable :=
    .of_step "app" (.field rfl) (hoperator done .application)
  cases reading with
  | start => exact .of_step "match" (.matching rfl) (hfield [])
  | field done => exact hfield done
  | operator done f => exact hoperator done f
  | text done f op => exact htext done f op
  | opening done f op => exact .of_step "(" (.opening rfl) (helement done f op [])
  | element done f op values => exact helement done f op values
  | separator done f op values => exact hseparator done f op values
  | tail done f op operand => exact htail done f op operand
  | first conditions => exact hfirst conditions
  | conjunction conditions t => exact hconjunction conditions t
  | last conditions t => exact hlast conditions t
  | limit conditions range => exact hlimit conditions range
  | number conditions range =>
      exact .of_step "1" (.number rfl hnumber) ⟨[], _, completes_nil_iff.mpr rfl⟩
  | complete query => exact ⟨[], query, completes_nil_iff.mpr rfl⟩

/-- Tokens that have been read can be continued to those of a query. -/
theorem Reads.exists_ofTokens {before : List Token} {middle : Reading}
    (h : Reads .start before middle) :
    ∃ suffix query, Query.ofTokens (before ++ suffix) = .ok query := by
  obtain ⟨suffix, query, final, hreads, hfinish⟩ := middle.viable
  have hall := h.append hreads
  have hbefore : Token.beforeEnd (before ++ suffix) = before ++ suffix := by
    rw [Token.beforeEnd, List.takeWhile_eq_self_iff]
    intro token htoken
    simpa using hall.kind_ne_terminator token htoken
  refine ⟨suffix, query, Query.ofTokens_eq_ok_iff.mpr ?_⟩
  rw [hbefore]
  exact ⟨final, hall, hfinish⟩

end Reading

/-- The token of an error is the first that cannot continue a query: the tokens before it can be
continued to a query, and whatever stands behind it the error is the same.  If it is no token of the
sequence, it is the end of the query placed behind the last one; then the sequence has no end, and
any end in that place is rejected. -/
theorem errors_mark_dead_ends {tokens : List Token} {e : SyntaxError}
    (h : Query.ofTokens tokens = .error e) :
    ∃ i ≤ tokens.length,
      e.token = tokens[i]?.getD (.terminator (Token.endOf 0 tokens)) ∧
      (∃ suffix query, Query.ofTokens (tokens.take i ++ suffix) = .ok query) ∧
      (i < tokens.length →
        ∀ suffix, Query.ofTokens (tokens.take (i + 1) ++ suffix) = .error e) ∧
      (i = tokens.length →
        (∀ token ∈ tokens, token.kind ≠ .terminator) ∧
          ∀ (token : Token) (suffix : List Token), token.kind = .terminator →
            Query.ofTokens (tokens ++ token :: suffix) = .error ⟨e.expected, token⟩) := by
  -- The reading fails at a token of the sequence or, behind all of them, at the end put there.
  obtain ⟨before, middle, hreads, hrejects, ⟨after, rfl⟩ | ⟨rfl, htoken⟩⟩ :=
    Reading.run_eq_error_iff.mp h
  · refine ⟨before.length, by simp, by simp, ?_, ?_, ?_⟩
    · rw [List.take_left]
      exact hreads.exists_ofTokens
    · intro _ suffix
      rw [← List.concat_append, ← List.length_concat, List.take_left, List.concat_append]
      exact Reading.run_eq_error_iff.mpr ⟨before, middle, hreads, hrejects, .inl ⟨suffix, rfl⟩⟩
    · intro hlength
      simp at hlength
  · refine ⟨tokens.length, Nat.le_refl _, by simpa using htoken, ?_, ?_, ?_⟩
    · rw [List.take_length]
      exact hreads.exists_ofTokens
    · intro hlt
      exact absurd hlt (Nat.lt_irrefl _)
    · intro _
      refine ⟨hreads.kind_ne_terminator, ?_⟩
      intro token suffix hend
      have hrejected : middle.Rejects token e.expected := by
        rw [Reading.Rejects, htoken, if_pos (Token.terminator_kind _)] at hrejects
        rwa [Reading.Rejects, if_pos hend]
      exact Reading.run_eq_error_iff.mpr
        ⟨tokens, middle, hreads, hrejected, .inl ⟨suffix, rfl⟩⟩

/-- A thirteenth month is reported: up to `BETWEEN` the tokens can be continued to a query, with that
moment they cannot. -/
theorem errors_mark_dead_ends_at_thirteenth_month :
    ∃ (before : List Token) (token : Token),
      before.map Token.kind = [.matching, .field .application, .operator .equals, .text, .between] ∧
      token = ⟨.dateTime, "2016-13-01 00:00:00", ⟨24, 43⟩⟩ ∧
      Query.ofTokens (before ++ [token]) = .error ⟨.moment, token⟩ ∧
      (∃ suffix query, Query.ofTokens (before ++ suffix) = .ok query) ∧
      ∀ suffix, Query.ofTokens (before ++ [token] ++ suffix) = .error ⟨.moment, token⟩ := by
  let before : List Token := [⟨.matching, "match", ⟨0, 5⟩⟩, ⟨.field .application, "app", ⟨6, 9⟩⟩,
    ⟨.operator .equals, "=", ⟨10, 11⟩⟩, ⟨.text, "x", ⟨12, 15⟩⟩, ⟨.between, "between", ⟨16, 23⟩⟩]
  let token : Token := ⟨.dateTime, "2016-13-01 00:00:00", ⟨24, 43⟩⟩
  have herror : Query.ofTokens (before ++ [token]) = .error ⟨.moment, token⟩ := by
    decide +kernel
  have hplace : ∀ i ≤ (before ++ [token]).length,
      token = (before ++ [token])[i]?.getD (.terminator (Token.endOf 0 (before ++ [token]))) →
        i = 5 := by
    decide +kernel
  obtain ⟨i, hle, htoken, hviable, hdead, -⟩ := errors_mark_dead_ends herror
  obtain rfl := hplace i hle htoken
  exact ⟨before, token, rfl, rfl, herror, hviable, hdead (by decide)⟩

end ErrorQuery
