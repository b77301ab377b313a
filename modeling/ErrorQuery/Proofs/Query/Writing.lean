import ErrorQuery.Proofs.Query.Likeness
import ErrorQuery.Proofs.Query.WellFormed
import ErrorQuery.Proofs.Scan.Lexemes

/-!
# Writing a query down

The lexemes of a query stand in the order of the grammar (`Query.lexemes`).  A word may be written
in any of its spellings and in any case, and between two lexemes stand blanks (`Written`).
Such a text falls into tokens, one for each lexeme (`Written.exists_tiling`), and the tokens of a
well-formed query are a sentence that denotes it (`Grammar.sentence_of_lexemes`).  Every
well-formed query has such a text (`Query.WellFormed.written_text`).
-/

set_option autoImplicit false

namespace ErrorQuery

open Text

/-! ### Lexemes -/

/-- The spellings of a keyword, of a word of the vocabulary or of a mark. -/
def Kind.spellings : Kind → List String
  | .matching => ["match"]
  | .between => ["between"]
  | .limit => ["limit"]
  | .connector .and => ["and"]
  | .connector .or => ["or"]
  | .field .application => ["application", "app"]
  | .field .exceptionType => ["exception", "ex"]
  | .field .fingerprint => ["fingerprint"]
  | .field .message => ["message", "msg"]
  | .field .stackFrame => ["stackframe", "sf"]
  | .operator .equals => ["="]
  | .operator .notEquals => ["!="]
  | .operator .like => ["like"]
  | .operator .notLike => ["not like"]
  | .operator .oneOf => ["in"]
  | .operator .noneOf => ["not in"]
  | .comma => [","]
  | .opening => ["("]
  | .closing => [")"]
  | .text | .dateTime | .number | .invalid | .terminator => []

/-- A unit of a written query. -/
inductive Lexeme where
  | word (kind : Kind)
  | text (value : String)
  | moment (t : DateTime)
  | number (n : UInt32)

namespace Lexeme

/-- The characters spell the lexeme: a word in one of its spellings regardless of case, a text
between quotes, a moment as a literal and a number in decimal digits. -/
def WrittenAs : Lexeme → List Char → Prop
  | .word kind, cs => ∃ spelling ∈ kind.spellings, cs.map fold = spelling.toList.map fold
  | .text value, cs => cs = '\'' :: (value.toList ++ ['\''])
  | .moment t, cs => cs = t.literal.toList
  | .number n, cs => IsNumeral cs n.toNat

instance (lexeme : Lexeme) (cs : List Char) : Decidable (lexeme.WrittenAs cs) :=
  match lexeme with
  | .word kind =>
      inferInstanceAs (Decidable (∃ spelling ∈ kind.spellings,
        cs.map fold = spelling.toList.map fold))
  | .text value => inferInstanceAs (Decidable (cs = '\'' :: (value.toList ++ ['\''])))
  | .moment t => inferInstanceAs (Decidable (cs = t.literal.toList))
  | .number n => inferInstanceAs (Decidable (IsNumeral cs n.toNat))

/-- The lexeme can be written so that it is read again. -/
def Writable : Lexeme → Prop
  | .word kind => kind.spellings ≠ []
  | .text value => '\'' ∉ value.toList
  | .moment t => t.Writable
  | .number _ => True

/-- The token stands for the lexeme. -/
def ReadFrom : Lexeme → Token → Prop
  | .word kind, token => token.kind = kind
  | .text value, token => token.kind = .text ∧ token.value = value
  | .moment t, token => token.kind = .dateTime ∧ DateTime.ofLiteral? token.value = some t
  | .number n, token => token.kind = .number ∧ Limit.read? token.value = some n

end Lexeme

/-- The lexemes are written one behind the other with blanks between them. -/
inductive Written : List Lexeme → List Char → Prop where
  | last {lexeme : Lexeme} {cs : List Char} : lexeme.WrittenAs cs → Written [lexeme] cs
  | more {lexeme : Lexeme} {lexemes : List Lexeme} {cs gap rest : List Char} :
      lexeme.WrittenAs cs → gap ≠ [] → (∀ c ∈ gap, isBlank c = true) → Written lexemes rest →
      Written (lexeme :: lexemes) (cs ++ (gap ++ rest))

/-- The lexemes of an operand. -/
def Operand.lexemes : Operand → List Lexeme
  | .single value => [.text value]
  | .list values =>
      .word .opening :: ((values.map Lexeme.text).intersperse (.word .comma) ++ [.word .closing])

/-- The lexemes of a condition, with those of the connector behind it. -/
def Condition.lexemes (condition : Condition) : List Lexeme :=
  (.word (.field condition.field) :: .word (.operator condition.operator) ::
    condition.operand.lexemes) ++ condition.connector.toList.map fun c => .word (.connector c)

/-- The lexemes of the two ends of the time that is covered. -/
def DateRange.lexemes (range : DateRange) : List Lexeme :=
  [.word .between, .moment range.first, .word (.connector .and), .moment range.last]

/-- The lexemes of a limit, if there is one. -/
def Limit.lexemes : Option UInt32 → List Lexeme
  | some n => [.word .limit, .number n]
  | none => []

/-- The lexemes of a query in the order of the grammar. -/
def Query.lexemes (query : Query) : List Lexeme :=
  .word .matching :: (query.conditions.flatMap Condition.lexemes ++ query.range.lexemes ++
    Limit.lexemes query.limit)

/-! ### From characters to tokens -/

namespace Shape

/-- The shape fits all of a text. -/
structure Covers (s : Shape) (cs : List Char) : Prop where
  fits : s.fits cs = true
  length : s.length = cs.length

/-- Shapes in a row cover texts in a row. -/
theorem Covers.append {s t : Shape} {cs ds : List Char} (hs : s.Covers cs) (ht : t.Covers ds) :
    Covers (s ++ t) (cs ++ ds) := by
  constructor
  · rw [fits_append hs.length, hs.fits, ht.fits, Bool.and_true]
  · rw [List.length_append, List.length_append, hs.length, ht.length]

/-- A word covers its spellings in any case of the letters. -/
theorem covers_word {spelling : String} {cs : List Char}
    (h : cs.map fold = spelling.toList.map fold) : (word spelling).Covers cs := by
  unfold word
  generalize spelling.toList = letters at h
  induction letters generalizing cs with
  | nil =>
      have hcs : cs = [] := by simpa using h
      rw [hcs]
      exact ⟨rfl, rfl⟩
  | cons l letters ih =>
      obtain ⟨c, cs, rfl, hc, hrest⟩ := List.map_eq_cons_iff.mp h
      have hletter : Covers [.letter l] [c] := by
        constructor
        · rw [Shape.fits, Shape.fits, Bool.and_true]
          exact sameLetter_iff.mpr hc
        · rfl
      exact hletter.append (ih hrest)

/-- As many digits cover that many ASCII digits. -/
theorem covers_digits {cs : List Char} (h : ∀ c ∈ cs, isAsciiDigit c = true) :
    (digits cs.length).Covers cs := by
  unfold digits
  induction cs with
  | nil => exact ⟨rfl, rfl⟩
  | cons c cs ih =>
      have hc : Covers [.digit] [c] := by
        constructor
        · rw [Shape.fits, Shape.fits, Bool.and_true]
          exact isDecimalDigit_of_isAsciiDigit (h c (by simp))
        · rfl
      exact hc.append (ih fun d hd => h d (List.mem_cons_of_mem c hd))

/-- The digits of a padded number are covered. -/
theorem covers_padded {width n : Nat} (hwidth : 0 < width) (h : n < 10 ^ width) :
    (digits width).Covers (padded width n).toList := by
  have hcovers := covers_digits (isNumeral_padded width n).digits
  rwa [length_padded hwidth h] at hcovers

end Shape

namespace Rule

/-- A spelling of a kind is an alternative of the rule for it. -/
theorem exists_of_spelling {kind : Kind} {spelling : String} (h : spelling ∈ kind.spellings) :
    ∃ rule ∈ table, rule.kind = kind ∧ Shape.word spelling ∈ rule.pattern.alternatives := by
  have hall : ∀ kind ∈ Kind.all, ∀ spelling ∈ kind.spellings,
      ∃ rule ∈ table, rule.kind = kind ∧ Shape.word spelling ∈ rule.pattern.alternatives := by
    decide
  exact hall kind kind.mem_all spelling h

/-- The rule of moments. -/
def timestamp : Rule :=
  ⟨.dateTime, .timestamp, 2⟩

/-- The rule of numbers. -/
def numeral : Rule :=
  ⟨.number, .digitRun, 2⟩

/-- A literal with nothing behind it is taken as a moment. -/
theorem takes_literal {t : DateTime} (h : t.Writable) : timestamp.Takes t.literal.toList [] := by
  obtain ⟨⟨hlow, hhigh⟩, -⟩ := h
  obtain ⟨hmonth, hday, hhour, hminute, hsecond⟩ := t.parts_in_range
  have hyear : (Shape.digits 4).Covers (padded 4 t.year.natAbs).toList :=
    Shape.covers_padded (by decide) (by omega)
  have hpart {n : Nat} (hn : n ≤ 60) : (Shape.digits 2).Covers (padded 2 n).toList :=
    Shape.covers_padded (by decide) (by omega)
  have hmark (mark : String) : (Shape.word mark).Covers mark.toList := Shape.covers_word rfl
  have hdate := (((hyear.append (hmark "-")).append (hpart (by omega : t.month ≤ 60))).append
    (hmark "-")).append (hpart (by omega : t.day ≤ 60))
  have hall := (((((hdate.append (hmark " ")).append (hpart (by omega : t.hour ≤ 60))).append
    (hmark ":")).append (hpart (by omega : t.minute ≤ 60))).append (hmark ":")).append
      (hpart (by omega : t.second ≤ 60))
  have htext : t.literal.toList = (padded 4 t.year.natAbs).toList ++ "-".toList ++
      (padded 2 t.month).toList ++ "-".toList ++ (padded 2 t.day).toList ++ " ".toList ++
      (padded 2 t.hour).toList ++ ":".toList ++ (padded 2 t.minute).toList ++ ":".toList ++
      (padded 2 t.second).toList := by
    simp only [DateTime.literal, String.toList_append]
  rw [htext]
  refine takes_of_fits (by decide) ?_ hall.fits hall.length (by simp)
  exact List.mem_singleton_self _

/-- A number with nothing behind it is taken as one. -/
theorem takes_numeral {cs : List Char} {n : Nat} (h : IsNumeral cs n) : numeral.Takes cs [] := by
  have hdigits : ∀ c ∈ cs, isDecimalDigit c = true := by
    intro c hc
    exact isDecimalDigit_of_isAsciiDigit (h.digits c hc)
  exact Pattern.width?_digitRun h.ne_nil hdigits rfl

end Rule

/-- A rule takes a written lexeme as a whole, and its token stands for the lexeme. -/
theorem Lexeme.exists_takes {lexeme : Lexeme} {cs : List Char} (h : lexeme.WrittenAs cs)
    (hwritable : lexeme.Writable) :
    ∃ rule ∈ Rule.table, rule.Takes cs [] ∧
      ∀ position, lexeme.ReadFrom (rule.token position cs) := by
  cases lexeme with
  | word kind =>
      obtain ⟨spelling, hspelling, hcs⟩ := h
      obtain ⟨rule, hrule, hkind, hshape⟩ := Rule.exists_of_spelling hspelling
      have hcovers := Shape.covers_word hcs
      have htakes : rule.Takes cs [] :=
        Rule.takes_of_fits hrule hshape hcovers.fits hcovers.length (by simp)
      exact ⟨rule, hrule, htakes, fun _ => hkind⟩
  | text value =>
      obtain rfl : cs = '\'' :: (value.toList ++ ['\'']) := h
      have hinside : ∀ c ∈ value.toList, c ≠ '\'' := by
        rintro c hc rfl
        exact hwritable hc
      have hleads := Rule.leads_quotedText hinside []
      refine ⟨Rule.quotedText, hleads.mem_table, hleads.takes, fun position => ⟨rfl, ?_⟩⟩
      have hvalue := congrArg Token.value (Rule.token_quotedText position value.toList)
      rw [hvalue, Token.literal, String.ofList_toList]
  | moment t =>
      have hcs : cs = t.literal.toList := h
      refine ⟨Rule.timestamp, by decide, hcs ▸ Rule.takes_literal hwritable, ?_⟩
      intro position
      have hvalue : (Rule.timestamp.token position cs).value = String.ofList cs := rfl
      refine ⟨rfl, ?_⟩
      rw [hvalue, hcs, String.ofList_toList]
      exact DateTime.ofLiteral?_literal hwritable
  | number n =>
      have hnumeral : IsNumeral cs n.toNat := h
      refine ⟨Rule.numeral, by decide, Rule.takes_numeral hnumeral, ?_⟩
      intro position
      have hvalue : (Rule.numeral.token position cs).value.toList = cs := String.toList_ofList
      refine ⟨rfl, read?_of_isNumeral ?_⟩
      rwa [hvalue]

namespace Written

/-- A written text falls into tokens, one for each lexeme. -/
theorem exists_tiling {lexemes : List Lexeme} {cs : List Char} (h : Written lexemes cs)
    (hwritable : ∀ lexeme ∈ lexemes, lexeme.Writable) (position : Nat) :
    ∃ tokens, Tiling position cs tokens ∧ List.Forall₂ Lexeme.ReadFrom lexemes tokens := by
  induction h generalizing position with
  | @last lexeme cs hcs =>
      obtain ⟨rule, hrule, ht, hread⟩ := Lexeme.exists_takes hcs (hwritable lexeme (by simp))
      have hleads : rule.Leads cs [] := Rule.leads_of_takes hrule ht (by simp)
      have htiling : Tiling position (cs ++ []) [rule.token position cs] := .token hleads .nil
      rw [List.append_nil] at htiling
      exact ⟨_, htiling, .cons (hread position) .nil⟩
  | @more lexeme lexemes cs gap rest hcs hne hgap _ ih =>
      obtain ⟨rule, hrule, ht, hread⟩ := Lexeme.exists_takes hcs (hwritable lexeme (by simp))
      obtain ⟨tokens, htiling, hrest⟩ := ih
        (fun l hl => hwritable l (List.mem_cons_of_mem lexeme hl))
        (position + byteLength cs + byteLength gap)
      -- the gap keeps the rule from taking part of the next lexeme
      have hblank : ∀ c ∈ (gap ++ rest).head?, isBlank c = true := by
        intro c hc
        obtain ⟨b, gap, rfl⟩ := List.exists_cons_of_ne_nil hne
        have hb : b = c := by simpa using hc
        rw [← hb]
        exact hgap b (by simp)
      have hleads := Rule.leads_of_takes hrule ht hblank
      exact ⟨_, .token hleads (.blanks hgap htiling), .cons (hread position) hrest⟩

end Written

/-! ### From tokens to a query -/

namespace Grammar

/-- Tokens read from texts with commas between them are a list of the texts. -/
theorem texts_of_lexemes {values : List String} (hne : values ≠ []) {tokens : List Token}
    (h : List.Forall₂ Lexeme.ReadFrom ((values.map Lexeme.text).intersperse (.word .comma)) tokens) :
    Texts tokens values := by
  induction values generalizing tokens with
  | nil => contradiction
  | cons value values ih =>
      cases values with
      | nil =>
          obtain _ | ⟨⟨hkind, rfl⟩, ⟨⟩⟩ := h
          exact .one hkind
      | cons next values =>
          obtain _ | ⟨⟨hkind, rfl⟩, _ | ⟨hcomma, hrest⟩⟩ := h
          exact .more hkind hcomma (ih (by simp) hrest)

/-- Tokens read from the lexemes of a comparison are that comparison. -/
theorem comparison_of_lexemes {condition : Condition} (hsuited : condition.Suited)
    {tokens : List Token}
    (h : List.Forall₂ Lexeme.ReadFrom (.word (.field condition.field) ::
      .word (.operator condition.operator) :: condition.operand.lexemes) tokens) :
    Comparison tokens condition.field condition.operator condition.operand := by
  obtain ⟨f, op, operand, connector⟩ := condition
  obtain _ | ⟨hfield, _ | ⟨hop, hoperand⟩⟩ := h
  cases operand with
  | single value =>
      obtain _ | ⟨⟨htext, rfl⟩, ⟨⟩⟩ := hoperand
      exact .single hfield hop hsuited htext
  | list values =>
      obtain _ | ⟨hopening, hrest⟩ := hoperand
      obtain ⟨texts, closings, rfl, htexts, hend⟩ := exists_append_of_forall₂ hrest
      obtain _ | ⟨hclosing, ⟨⟩⟩ := hend
      exact .list hfield hop hsuited.1 hopening (texts_of_lexemes hsuited.2 htexts) hclosing

/-- The tokens of joined conditions are a chain that denotes them. -/
theorem chain_of_lexemes {conditions : List Condition} (hjoined : Joined conditions)
    (hsuited : ∀ condition ∈ conditions, condition.Suited) {tokens : List Token}
    (h : List.Forall₂ Lexeme.ReadFrom (conditions.flatMap Condition.lexemes) tokens) :
    Chain tokens conditions := by
  induction conditions generalizing tokens with
  | nil => contradiction
  | cons condition conditions ih =>
      rw [List.flatMap_cons] at h
      obtain ⟨front, rest, rfl, hfront, hrest⟩ := exists_append_of_forall₂ h
      obtain ⟨comparison, words, rfl, hcomparison, hwords⟩ := exists_append_of_forall₂ hfront
      have hchain := comparison_of_lexemes (hsuited condition (by simp)) hcomparison
      obtain ⟨f, op, operand, connector⟩ := condition
      cases conditions with
      | nil =>
          obtain rfl : connector = none := hjoined
          cases hwords
          cases hrest
          rw [List.append_nil, List.append_nil]
          exact .last hchain
      | cons next conditions =>
          obtain ⟨hconnector, hjoined⟩ := hjoined
          obtain ⟨c, rfl⟩ := Option.isSome_iff_exists.mp hconnector
          obtain _ | ⟨hword, ⟨⟩⟩ := hwords
          rw [List.append_assoc]
          exact .joined hchain hword
            (ih hjoined (fun other hother => hsuited other (List.mem_cons_of_mem _ hother)) hrest)

/-- Tokens read from the lexemes of a limit are that limit. -/
theorem clause_of_lexemes {limit : Option UInt32} {tokens : List Token}
    (h : List.Forall₂ Lexeme.ReadFrom (Limit.lexemes limit) tokens) : LimitClause tokens limit := by
  cases limit with
  | none =>
      cases h
      exact .absent
  | some n =>
      obtain _ | ⟨hword, _ | ⟨⟨hkind, hread⟩, ⟨⟩⟩⟩ := h
      exact .present hword hkind hread

/-- The tokens of a well-formed query are a sentence that denotes it. -/
theorem sentence_of_lexemes {query : Query} (hquery : query.WellFormed) {tokens : List Token}
    (h : List.Forall₂ Lexeme.ReadFrom query.lexemes tokens) : Sentence tokens query := by
  obtain _ | ⟨hword, hrest⟩ := h
  obtain ⟨front, clause, rfl, hfront, hclause⟩ := exists_append_of_forall₂ hrest
  obtain ⟨chain, range, rfl, hchain, hrange⟩ := exists_append_of_forall₂ hfront
  obtain _ | ⟨hbetween, _ | ⟨⟨hfirst, ht⟩, _ | ⟨hconjunction, _ | ⟨⟨hlast, hu⟩, ⟨⟩⟩⟩⟩⟩ := hrange
  exact .mk hword (chain_of_lexemes hquery.joined hquery.suited hchain)
    (.mk hbetween hfirst ht hconjunction hlast hu) (clause_of_lexemes hclause)

end Grammar

/-! ### Every well-formed query can be written -/

/-- What holds of a separator and of all members holds of the separated list. -/
theorem forall_mem_intersperse {α : Type} {P : α → Prop} {separator : α} (hseparator : P separator)
    {l : List α} (h : ∀ a ∈ l, P a) : ∀ a ∈ l.intersperse separator, P a := by
  induction l with
  | nil => simp
  | cons a l ih =>
      have ha := h a (by simp)
      have hrest := ih fun b hb => h b (List.mem_cons_of_mem a hb)
      cases l with
      | nil => simpa using ha
      | cons b l =>
          intro c hc
          rcases List.mem_cons.mp hc with rfl | hc
          · exact ha
          rcases List.mem_cons.mp hc with rfl | hc
          · exact hseparator
          · exact hrest c hc

/-- Every word of the language can be written. -/
theorem Lexeme.writable_word {kind : Kind}
    (h : kind ∉ [.text, .dateTime, .number, .invalid, .terminator]) :
    (Lexeme.word kind).Writable := by
  have hall : ∀ kind ∈ Kind.all, kind ∉ [.text, .dateTime, .number, .invalid, .terminator] →
      kind.spellings ≠ [] := by
    decide
  exact hall kind kind.mem_all h

/-- The lexemes of an operand without quotes in it can be written. -/
theorem Operand.writable_lexemes {operand : Operand}
    (h : ∀ value ∈ operand.values, '\'' ∉ value.toList) :
    ∀ lexeme ∈ operand.lexemes, lexeme.Writable := by
  cases operand with
  | single value =>
      intro lexeme hlexeme
      rw [List.mem_singleton.mp hlexeme]
      exact h value (by simp [values])
  | list values =>
      have htexts : ∀ lexeme ∈ values.map Lexeme.text, lexeme.Writable := by
        intro lexeme hlexeme
        obtain ⟨value, hvalue, rfl⟩ := List.mem_map.mp hlexeme
        exact h value hvalue
      intro lexeme hlexeme
      simp only [lexemes, List.mem_cons, List.mem_append, List.not_mem_nil, or_false] at hlexeme
      rcases hlexeme with rfl | hlexeme | rfl
      · exact Lexeme.writable_word (by decide)
      · exact forall_mem_intersperse (Lexeme.writable_word (by decide)) htexts lexeme hlexeme
      · exact Lexeme.writable_word (by decide)

/-- The lexemes of a condition without quotes in it can be written. -/
theorem Condition.writable_lexemes {condition : Condition} (h : condition.Unquoted) :
    ∀ lexeme ∈ condition.lexemes, lexeme.Writable := by
  intro lexeme hlexeme
  simp only [lexemes, List.cons_append, List.mem_cons, List.mem_append, List.mem_map] at hlexeme
  rcases hlexeme with rfl | rfl | hlexeme | ⟨c, -, rfl⟩
  · exact Lexeme.writable_word (by simp)
  · exact Lexeme.writable_word (by simp)
  · exact Operand.writable_lexemes h lexeme hlexeme
  · exact Lexeme.writable_word (by simp)

/-- The lexemes of a well-formed query can be written. -/
theorem Query.WellFormed.writable_lexemes {query : Query} (h : query.WellFormed) :
    ∀ lexeme ∈ query.lexemes, lexeme.Writable := by
  intro lexeme hlexeme
  simp only [lexemes, DateRange.lexemes, List.mem_cons, List.mem_append, List.mem_flatMap,
    List.not_mem_nil, or_false] at hlexeme
  rcases hlexeme with rfl | (⟨condition, hcondition, hlexeme⟩ | rfl | rfl | rfl | rfl) | hlexeme
  · exact Lexeme.writable_word (by decide)
  · exact Condition.writable_lexemes (h.unquoted condition hcondition) lexeme hlexeme
  · exact Lexeme.writable_word (by decide)
  · exact h.first
  · exact Lexeme.writable_word (by decide)
  · exact h.last
  · cases hlimit : query.limit with
    | none =>
        rw [hlimit] at hlexeme
        contradiction
    | some n =>
        rw [hlimit] at hlexeme
        simp only [Limit.lexemes, List.mem_cons, List.not_mem_nil, or_false] at hlexeme
        rcases hlexeme with rfl | rfl
        · exact Lexeme.writable_word (by decide)
        · exact trivial

/-- The lexeme in its first spelling. -/
def Lexeme.chars : Lexeme → List Char
  | .word kind => (kind.spellings.headD "").toList
  | .text value => '\'' :: (value.toList ++ ['\''])
  | .moment t => t.literal.toList
  | .number n => (decimal n.toNat).toList

/-- A lexeme is written as its characters. -/
theorem Lexeme.writtenAs_chars {lexeme : Lexeme} (h : lexeme.Writable) :
    lexeme.WrittenAs lexeme.chars := by
  cases lexeme with
  | word kind =>
      obtain ⟨spelling, spellings, hkind⟩ := List.exists_cons_of_ne_nil h
      refine ⟨spelling, by rw [hkind]; exact List.mem_cons_self, ?_⟩
      rw [chars, hkind, List.headD_cons]
  | text value => exact rfl
  | moment t => exact rfl
  | number n => exact isNumeral_decimal n.toNat

/-- A query written with one space between its lexemes. -/
def Query.text (query : Query) : String :=
  String.ofList ([' '].intercalate (query.lexemes.map Lexeme.chars))

/-- Lexemes are written with a space between each and the next. -/
theorem written_intercalate {lexemes : List Lexeme} (hne : lexemes ≠ [])
    (h : ∀ lexeme ∈ lexemes, lexeme.Writable) :
    Written lexemes ([' '].intercalate (lexemes.map Lexeme.chars)) := by
  induction lexemes with
  | nil => contradiction
  | cons lexeme lexemes ih =>
      have hfirst := Lexeme.writtenAs_chars (h lexeme (by simp))
      cases lexemes with
      | nil =>
          rw [List.map_singleton, List.intercalate_singleton]
          exact .last hfirst
      | cons next lexemes =>
          have hrest := ih (by simp) fun other hother => h other (List.mem_cons_of_mem lexeme hother)
          rw [List.map_cons, List.map_cons, List.intercalate_cons_cons, List.append_assoc]
          exact .more hfirst (by simp) (by simp [isBlank_space]) hrest

/-- A well-formed query can be written. -/
theorem Query.WellFormed.written_text {query : Query} (h : query.WellFormed) :
    Written query.lexemes query.text.toList := by
  rw [Query.text, String.toList_ofList]
  exact written_intercalate (by simp [Query.lexemes]) h.writable_lexemes

end ErrorQuery
