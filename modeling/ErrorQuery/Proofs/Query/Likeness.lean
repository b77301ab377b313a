import ErrorQuery.Proofs.Query.Grammar
import Mathlib.Data.List.Forall2

/-!
# Queries that differ in their texts only

Tokens are alike if they have the same kind and, unless they are texts, the same value.  Alike
sequences of tokens are sentences together, and the queries they denote differ in their texts only
(`Grammar.Sentence.transfer`): no stage of the reading looks into a text.  Which texts a query has
is seen from its tokens, in order (`Grammar.Sentence.texts`).
-/

set_option autoImplicit false

namespace ErrorQuery

/-- Tokens of one kind, with the same value unless they are texts. -/
structure Token.Like (token token' : Token) : Prop where
  kind : token.kind = token'.kind
  value : token.kind ≠ .text → token.value = token'.value

/-- The values of the texts among some tokens. -/
def Token.texts (tokens : List Token) : List String :=
  (tokens.filter fun token => token.kind = .text).map Token.value

/-- Operands of one form with the same number of texts. -/
inductive Operand.Like : Operand → Operand → Prop where
  | single (s t : String) : Operand.Like (.single s) (.single t)
  | list {ss ts : List String} : ss.length = ts.length → Operand.Like (.list ss) (.list ts)

/-- Conditions that differ in the texts of their operands only. -/
structure Condition.Like (condition condition' : Condition) : Prop where
  field : condition.field = condition'.field
  operator : condition.operator = condition'.operator
  operand : condition.operand.Like condition'.operand
  connector : condition.connector = condition'.connector

/-- Queries that differ in their texts only. -/
structure Query.Like (query query' : Query) : Prop where
  range : query.range = query'.range
  limit : query.limit = query'.limit
  conditions : List.Forall₂ Condition.Like query.conditions query'.conditions

/-- Like operands have as many texts. -/
theorem Operand.Like.length_values {operand operand' : Operand} (h : operand.Like operand') :
    operand.values.length = operand'.values.length := by
  cases h with
  | single s t => rfl
  | list hlen => exact hlen

namespace Token

/-- Without tokens there are no texts. -/
@[simp] theorem texts_nil : texts [] = [] := rfl

/-- The texts of tokens in a row. -/
@[simp] theorem texts_append (tokens more : List Token) :
    texts (tokens ++ more) = texts tokens ++ texts more := by
  simp [texts]

/-- A token for a text gives its value. -/
theorem texts_cons_of_text {token : Token} (h : token.kind = .text) (tokens : List Token) :
    texts (token :: tokens) = token.value :: texts tokens := by
  simp [texts, h]

/-- A token of another kind gives no text. -/
theorem texts_cons_of_ne {token : Token} (h : token.kind ≠ .text) (tokens : List Token) :
    texts (token :: tokens) = texts tokens := by
  simp [texts, h]

end Token

/-- A list that agrees with two lists in a row falls into two that agree with them. -/
theorem exists_append_of_forall₂ {α β : Type} {R : α → β → Prop} {xs ys : List α} {zs : List β}
    (h : List.Forall₂ R (xs ++ ys) zs) :
    ∃ xs' ys', zs = xs' ++ ys' ∧ List.Forall₂ R xs xs' ∧ List.Forall₂ R ys ys' := by
  induction xs generalizing zs with
  | nil => exact ⟨[], zs, rfl, .nil, h⟩
  | cons x xs ih =>
      obtain ⟨z, zs, hx, hrest, rfl⟩ := List.forall₂_cons_left_iff.mp h
      obtain ⟨xs', ys', rfl, hxs, hys⟩ := ih hrest
      exact ⟨z :: xs', ys', rfl, .cons hx hxs, hys⟩

namespace Grammar

/-! ### The texts of a sentence -/

/-- The texts of a list are those of its tokens. -/
theorem Texts.texts {tokens : List Token} {values : List String} (h : Texts tokens values) :
    Token.texts tokens = values := by
  induction h with
  | one htext => rw [Token.texts_cons_of_text htext, Token.texts_nil]
  | more htext hcomma _ ih =>
      have hother := ne_of_eq_of_ne hcomma (by decide : Kind.comma ≠ .text)
      rw [Token.texts_cons_of_text htext, Token.texts_cons_of_ne hother, ih]

/-- The texts of a comparison are those of its tokens. -/
theorem Comparison.texts {tokens : List Token} {f : Field} {op : Operator} {operand : Operand}
    (h : Comparison tokens f op operand) : Token.texts tokens = operand.values := by
  cases h with
  | single hfield hop _ htext =>
      have hfield' := ne_of_eq_of_ne hfield (by simp : Kind.field f ≠ .text)
      have hop' := ne_of_eq_of_ne hop (by simp : Kind.operator op ≠ .text)
      rw [Token.texts_cons_of_ne hfield', Token.texts_cons_of_ne hop',
        Token.texts_cons_of_text htext]
      rfl
  | list hfield hop _ hopening htexts hclosing =>
      have hfield' := ne_of_eq_of_ne hfield (by simp : Kind.field f ≠ .text)
      have hop' := ne_of_eq_of_ne hop (by simp : Kind.operator op ≠ .text)
      have hopening' := ne_of_eq_of_ne hopening (by decide : Kind.opening ≠ .text)
      have hclosing' := ne_of_eq_of_ne hclosing (by decide : Kind.closing ≠ .text)
      rw [Token.texts_cons_of_ne hfield', Token.texts_cons_of_ne hop',
        Token.texts_cons_of_ne hopening', Token.texts_append, htexts.texts,
        Token.texts_cons_of_ne hclosing', Token.texts_nil, List.append_nil]
      rfl

/-- The texts of conditions are those of their tokens. -/
theorem Chain.texts {tokens : List Token} {conditions : List Condition}
    (h : Chain tokens conditions) :
    Token.texts tokens = conditions.flatMap (·.operand.values) := by
  induction h with
  | last hcomparison => simp [hcomparison.texts]
  | @joined _ _ _ _ _ _ c _ hcomparison hword _ ih =>
      have hword' := ne_of_eq_of_ne hword (by simp : Kind.connector c ≠ .text)
      rw [Token.texts_append, hcomparison.texts, Token.texts_cons_of_ne hword', ih,
        List.flatMap_cons]

/-- The texts of a query are those of its tokens, in order. -/
theorem Sentence.texts {tokens : List Token} {query : Query} (h : Sentence tokens query) :
    Token.texts tokens = query.conditions.flatMap (·.operand.values) := by
  cases h with
  | mk hword hchain hrange hclause =>
      have hword' := ne_of_eq_of_ne hword (by decide : Kind.matching ≠ .text)
      rw [Token.texts_cons_of_ne hword', Token.texts_append, Token.texts_append, hchain.texts]
      cases hrange with
      | mk hbetween hfirst _ hconjunction hlast _ =>
          cases hclause with
          | absent => simp [Token.texts, hbetween, hfirst, hconjunction, hlast]
          | present hlimit hnumber _ =>
              simp [Token.texts, hbetween, hfirst, hconjunction, hlast, hlimit, hnumber]

/-! ### Alike tokens -/

/-- Tokens like those of a list are a list of as many texts. -/
theorem Texts.transfer {tokens tokens' : List Token} {values : List String}
    (h : Texts tokens values) (hlike : List.Forall₂ Token.Like tokens tokens') :
    ∃ values', Texts tokens' values' ∧ values.length = values'.length := by
  induction h generalizing tokens' with
  | one htext =>
      obtain _ | ⟨htext', ⟨⟩⟩ := hlike
      exact ⟨_, .one (htext'.kind ▸ htext), rfl⟩
  | more htext hcomma _ ih =>
      obtain _ | ⟨htext', _ | ⟨hcomma', hrest⟩⟩ := hlike
      obtain ⟨values', hvalues, hlen⟩ := ih hrest
      refine ⟨_, .more (htext'.kind ▸ htext) (hcomma'.kind ▸ hcomma) hvalues, ?_⟩
      simp [hlen]

/-- Tokens like those of a comparison are one with a like operand. -/
theorem Comparison.transfer {tokens tokens' : List Token} {f : Field} {op : Operator}
    {operand : Operand} (h : Comparison tokens f op operand)
    (hlike : List.Forall₂ Token.Like tokens tokens') :
    ∃ operand', Comparison tokens' f op operand' ∧ operand.Like operand' := by
  cases h with
  | single hfield hop hmem htext =>
      obtain _ | ⟨hfield', _ | ⟨hop', _ | ⟨htext', ⟨⟩⟩⟩⟩ := hlike
      exact ⟨_, .single (hfield'.kind ▸ hfield) (hop'.kind ▸ hop) hmem (htext'.kind ▸ htext),
        .single _ _⟩
  | list hfield hop hmem hopening htexts hclosing =>
      obtain _ | ⟨hfield', _ | ⟨hop', _ | ⟨hopening', hrest⟩⟩⟩ := hlike
      obtain ⟨texts', closings, rfl, htexts', hend⟩ := exists_append_of_forall₂ hrest
      obtain _ | ⟨hclosing', ⟨⟩⟩ := hend
      obtain ⟨values', hvalues, hlen⟩ := htexts.transfer htexts'
      refine ⟨.list values', ?_, .list hlen⟩
      exact .list (hfield'.kind ▸ hfield) (hop'.kind ▸ hop) hmem (hopening'.kind ▸ hopening)
        hvalues (hclosing'.kind ▸ hclosing)

/-- Tokens like those of conditions are like conditions. -/
theorem Chain.transfer {tokens tokens' : List Token} {conditions : List Condition}
    (h : Chain tokens conditions) (hlike : List.Forall₂ Token.Like tokens tokens') :
    ∃ conditions', Chain tokens' conditions' ∧
      List.Forall₂ Condition.Like conditions conditions' := by
  induction h generalizing tokens' with
  | last hcomparison =>
      obtain ⟨operand', hcomparison', hoperand⟩ := hcomparison.transfer hlike
      exact ⟨_, .last hcomparison', .cons ⟨rfl, rfl, hoperand, rfl⟩ .nil⟩
  | joined hcomparison hword _ ih =>
      obtain ⟨front, back, rfl, hfront, hback⟩ := exists_append_of_forall₂ hlike
      obtain _ | ⟨hword', hrest⟩ := hback
      obtain ⟨operand', hcomparison', hoperand⟩ := hcomparison.transfer hfront
      obtain ⟨conditions', hchain, hconditions⟩ := ih hrest
      exact ⟨_, .joined hcomparison' (hword'.kind ▸ hword) hchain,
        .cons ⟨rfl, rfl, hoperand, rfl⟩ hconditions⟩

/-- Tokens like those of a range are the same range. -/
theorem Range.transfer {tokens tokens' : List Token} {range : DateRange}
    (h : Range tokens range) (hlike : List.Forall₂ Token.Like tokens tokens') :
    Range tokens' range := by
  cases h with
  | mk hbetween hfirst ht hconjunction hlast hu =>
      obtain _ | ⟨hbetween', _ | ⟨hfirst', _ | ⟨hconjunction', _ | ⟨hlast', ⟨⟩⟩⟩⟩⟩ := hlike
      have hfirstValue := hfirst'.value (by rw [hfirst]; decide)
      have hlastValue := hlast'.value (by rw [hlast]; decide)
      exact .mk (hbetween'.kind ▸ hbetween) (hfirst'.kind ▸ hfirst) (hfirstValue ▸ ht)
        (hconjunction'.kind ▸ hconjunction) (hlast'.kind ▸ hlast) (hlastValue ▸ hu)

/-- Tokens like those of a limit are the same limit. -/
theorem LimitClause.transfer {tokens tokens' : List Token} {limit : Option UInt32}
    (h : LimitClause tokens limit) (hlike : List.Forall₂ Token.Like tokens tokens') :
    LimitClause tokens' limit := by
  cases h with
  | absent =>
      cases hlike
      exact .absent
  | present hword hnumber hread =>
      obtain _ | ⟨hword', _ | ⟨hnumber', ⟨⟩⟩⟩ := hlike
      have hvalue := hnumber'.value (by rw [hnumber]; decide)
      exact .present (hword'.kind ▸ hword) (hnumber'.kind ▸ hnumber) (hvalue ▸ hread)

/-- Alike tokens denote queries that differ in their texts only. -/
theorem Sentence.transfer {tokens tokens' : List Token} {query : Query}
    (h : Sentence tokens query) (hlike : List.Forall₂ Token.Like tokens tokens') :
    ∃ query', Sentence tokens' query' ∧ query.Like query' := by
  cases h with
  | mk hword hchain hrange hclause =>
      obtain _ | ⟨hword', hrest⟩ := hlike
      obtain ⟨front, clause', rfl, hfront, hclause'⟩ := exists_append_of_forall₂ hrest
      obtain ⟨chain', range', rfl, hchain', hrange'⟩ := exists_append_of_forall₂ hfront
      obtain ⟨conditions', hconditions, hlikes⟩ := hchain.transfer hchain'
      refine ⟨_, .mk (hword'.kind ▸ hword) hconditions (hrange.transfer hrange')
        (hclause.transfer hclause'), ?_⟩
      exact ⟨rfl, rfl, hlikes⟩

end Grammar

end ErrorQuery
