import ErrorQuery.Proofs.Query.Likeness
import ErrorQuery.Proofs.Sql.Lines

/-!
# The literals of a sentence

Each text of a query is compared with a field, and each text token stands behind tokens that name
fields.  In a sentence the field of a text is the one named last before it: the texts of a query
with their fields are those of its tokens, in order (`Grammar.Sentence.bindings`).  The moments of
a sentence are two, the ends of its range (`Grammar.Sentence.range_moments`).
-/

set_option autoImplicit false

namespace ErrorQuery

namespace Token

/-- The field that a token names. -/
def field? (token : Token) : Option Field :=
  match token.kind with
  | .field f => some f
  | _ => none

/-- The field that is named last among some tokens. -/
def lastField? (tokens : List Token) : Option Field :=
  tokens.reverse.findSome? field?

/-- The texts among some tokens in order, each with the field named last before it; `named` is the
field named last before all of them. -/
def bindings (named : Option Field) : List Token → List (Option Field × String)
  | [] => []
  | token :: tokens =>
      if token.kind = .text then (named, token.value) :: bindings named tokens
      else bindings (token.field?.or named) tokens

/-- The moments that the date-time literals among some tokens denote. -/
def moments (tokens : List Token) : List (Option DateTime) :=
  (tokens.filter fun token => token.kind = .dateTime).map fun token =>
    DateTime.ofLiteral? token.value

/-- The field that a token names. -/
theorem field?_of_field {token : Token} {f : Field} (h : token.kind = .field f) :
    token.field? = some f := by
  rw [field?, h]

/-- A token of another kind names no field. -/
theorem field?_of_ne {token : Token} (h : token.kind.isField = false) : token.field? = none := by
  unfold field?
  split
  · rename_i f hkind
    rw [hkind] at h
    contradiction
  · rfl

/-- The last field that is named is that of the first token only if none behind it names one. -/
theorem lastField?_cons (token : Token) (tokens : List Token) :
    lastField? (token :: tokens) = (lastField? tokens).or token.field? := by
  unfold lastField?
  rw [List.reverse_cons, List.findSome?_append]
  cases hfield : token.field? <;> simp [hfield]

/-- A text is bound for the field that has been named. -/
theorem bindings_cons_of_text {token : Token} (h : token.kind = .text) (named : Option Field)
    (tokens : List Token) :
    bindings named (token :: tokens) = (named, token.value) :: bindings named tokens := by
  rw [bindings, if_pos h]

/-- A field is named for the texts behind it. -/
theorem bindings_cons_of_field {token : Token} {f : Field} (h : token.kind = .field f)
    (named : Option Field) (tokens : List Token) :
    bindings named (token :: tokens) = bindings (some f) tokens := by
  rw [bindings, if_neg (by simp [h]), field?_of_field h, Option.some_or]

/-- Other tokens neither name a field nor are texts. -/
theorem bindings_cons_of_other {token : Token} {k : Kind} (h : token.kind = k) (htext : k ≠ .text)
    (hfield : k.isField = false) (named : Option Field) (tokens : List Token) :
    bindings named (token :: tokens) = bindings named tokens := by
  rw [bindings, if_neg (by rwa [h]), field?_of_ne (by rwa [h]), Option.none_or]

/-- The texts of the bindings are those of the tokens. -/
theorem map_snd_bindings (named : Option Field) (tokens : List Token) :
    (bindings named tokens).map Prod.snd = texts tokens := by
  induction tokens generalizing named with
  | nil => rfl
  | cons token tokens ih =>
      by_cases htext : token.kind = .text
      · rw [bindings_cons_of_text htext, texts_cons_of_text htext, List.map_cons, ih]
      · rw [bindings, if_neg htext, texts_cons_of_ne htext, ih]

/-- Further tokens are bound for the field that has been named last. -/
theorem bindings_append (named : Option Field) (tokens more : List Token) :
    bindings named (tokens ++ more) =
      bindings named tokens ++ bindings ((lastField? tokens).or named) more := by
  induction tokens generalizing named with
  | nil => rfl
  | cons token tokens ih =>
      rw [List.cons_append, lastField?_cons, Option.or_assoc]
      by_cases htext : token.kind = .text
      · have hnone : token.field? = none := field?_of_ne (by rw [htext]; rfl)
        rw [bindings_cons_of_text htext, bindings_cons_of_text htext, ih, hnone, Option.none_or,
          List.cons_append]
      · rw [bindings, if_neg htext, bindings, if_neg htext, ih]

/-- A text is found behind as many texts as stand before it, with the field named last before
it. -/
theorem getElem?_bindings (before after : List Token) {token : Token} (h : token.kind = .text) :
    (bindings none (before ++ token :: after))[(texts before).length]? =
      some (lastField? before, token.value) := by
  have hlength : (bindings none before).length = (texts before).length := by
    rw [← map_snd_bindings none before, List.length_map]
  rw [bindings_append, bindings_cons_of_text h, Option.or_none, ← hlength,
    List.getElem?_append_right (Nat.le_refl _), Nat.sub_self, List.getElem?_cons_zero]

/-- The moments of tokens in a row. -/
theorem moments_append (tokens more : List Token) :
    moments (tokens ++ more) = moments tokens ++ moments more := by
  simp [moments]

/-- Without a token for one there is no moment. -/
theorem moments_of_ne {tokens : List Token} (h : ∀ token ∈ tokens, token.kind ≠ .dateTime) :
    moments tokens = [] := by
  unfold moments
  rw [List.map_eq_nil_iff, List.filter_eq_nil_iff]
  intro token htoken
  simpa using h token htoken

end Token

namespace Grammar

/-! ### Texts and their fields -/

/-- The texts of a list are bound for the field before the list. -/
theorem Texts.bindings {tokens : List Token} {values : List String} (h : Texts tokens values)
    (named : Option Field) : Token.bindings named tokens = values.map (named, ·) := by
  induction h with
  | one htext =>
      rw [Token.bindings_cons_of_text htext]
      rfl
  | more htext hcomma _ ih =>
      rw [Token.bindings_cons_of_text htext, Token.bindings_cons_of_other hcomma (by simp) rfl, ih,
        List.map_cons]

/-- The texts of a comparison belong to its field, whatever was named before. -/
theorem Comparison.bindings {tokens : List Token} {f : Field} {op : Operator} {operand : Operand}
    (h : Comparison tokens f op operand) (named : Option Field) :
    Token.bindings named tokens = operand.values.map (some f, ·) := by
  cases h with
  | single hfield hop _ htext =>
      rw [Token.bindings_cons_of_field hfield, Token.bindings_cons_of_other hop (by simp) rfl,
        Token.bindings_cons_of_text htext]
      rfl
  | list hfield hop _ hopening htexts hclosing =>
      rw [Token.bindings_cons_of_field hfield, Token.bindings_cons_of_other hop (by simp) rfl,
        Token.bindings_cons_of_other hopening (by simp) rfl, Token.bindings_append,
        htexts.bindings, Token.bindings_cons_of_other hclosing (by simp) rfl]
      exact List.append_nil _

/-- The tokens of conditions bind what the conditions do. -/
theorem Chain.bindings {tokens : List Token} {conditions : List Condition}
    (h : Chain tokens conditions) (named : Option Field) :
    Token.bindings named tokens =
      (conditions.flatMap Condition.bindings).map fun binding => (some binding.1, binding.2) := by
  induction h generalizing named with
  | last hcomparison =>
      rw [hcomparison.bindings]
      simp [Condition.bindings]
  | joined hcomparison hword _ ih =>
      rw [Token.bindings_append, hcomparison.bindings,
        Token.bindings_cons_of_other hword (by simp) rfl, ih, List.flatMap_cons, List.map_append]
      simp [Condition.bindings]

/-- The texts of a query with their fields are those of its tokens, in order. -/
theorem Sentence.bindings {tokens : List Token} {query : Query} (h : Sentence tokens query) :
    Token.bindings none tokens =
      query.bindings.map fun binding => (some binding.1, binding.2) := by
  cases h with
  | @mk word chain range clause conditions r limit hword hchain hrange hclause =>
      have hfree : Token.texts (range ++ clause) = [] := by
        cases hrange with
        | mk hbetween hfirst _ hconjunction hlast _ =>
            cases hclause with
            | absent => simp [Token.texts, hbetween, hfirst, hconjunction, hlast]
            | present hlimit hnumber _ =>
                simp [Token.texts, hbetween, hfirst, hconjunction, hlast, hlimit, hnumber]
      have hnone (named : Option Field) : Token.bindings named (range ++ clause) = [] := by
        rw [← List.map_eq_nil_iff, Token.map_snd_bindings, hfree]
      rw [Token.bindings_cons_of_other hword (by simp) rfl, List.append_assoc,
        Token.bindings_append, hchain.bindings, hnone, List.append_nil]
      rfl

/-! ### Moments -/

/-- There is no moment in a list of texts. -/
theorem Texts.kind_ne_dateTime {tokens : List Token} {values : List String}
    (h : Texts tokens values) : ∀ token ∈ tokens, token.kind ≠ .dateTime := by
  induction h with
  | one htext => simp [htext]
  | more htext hcomma _ ih =>
      rw [List.forall_mem_cons, List.forall_mem_cons, htext, hcomma]
      exact ⟨by decide, by decide, ih⟩

/-- There is no moment in a comparison. -/
theorem Comparison.kind_ne_dateTime {tokens : List Token} {f : Field} {op : Operator}
    {operand : Operand} (h : Comparison tokens f op operand) :
    ∀ token ∈ tokens, token.kind ≠ .dateTime := by
  cases h with
  | single hfield hop _ htext => simp [hfield, hop, htext]
  | list hfield hop _ hopening htexts hclosing =>
      have hlist := htexts.kind_ne_dateTime
      simp only [List.forall_mem_cons, List.forall_mem_append, hfield, hop, hopening, hclosing]
      exact ⟨by simp, by simp, by simp, hlist, by simp⟩

/-- There is no moment in a chain of conditions. -/
theorem Chain.kind_ne_dateTime {tokens : List Token} {conditions : List Condition}
    (h : Chain tokens conditions) : ∀ token ∈ tokens, token.kind ≠ .dateTime := by
  induction h with
  | last hcomparison => exact hcomparison.kind_ne_dateTime
  | joined hcomparison hword _ ih =>
      rw [List.forall_mem_append, List.forall_mem_cons, hword]
      exact ⟨hcomparison.kind_ne_dateTime, by simp, ih⟩

/-- The moments among the tokens of a query are the two ends of its range. -/
theorem Sentence.range_moments {tokens : List Token} {query : Query} (h : Sentence tokens query) :
    Token.moments tokens = [some query.range.first, some query.range.last] := by
  cases h with
  | @mk word chain range clause conditions r limit hword hchain hrange hclause =>
      have hends : Token.moments (range ++ clause) = [some r.first, some r.last] := by
        cases hrange with
        | mk hbetween hfirst ht hconjunction hlast hu =>
            cases hclause with
            | absent => simp [Token.moments, hbetween, hfirst, hconjunction, hlast, ht, hu]
            | present hlimit hnumber _ =>
                simp [Token.moments, hbetween, hfirst, hconjunction, hlast, hlimit, hnumber, ht, hu]
      have hfront : Token.moments (word :: chain) = [] := by
        apply Token.moments_of_ne
        rw [List.forall_mem_cons, hword]
        exact ⟨by simp, hchain.kind_ne_dateTime⟩
      rw [List.append_assoc, ← List.cons_append, Token.moments_append, hfront, hends,
        List.nil_append]

end Grammar

end ErrorQuery
