import ErrorQuery.Proofs.Compiler.Strategies
import ErrorQuery.Proofs.Query.Likeness
import ErrorQuery.Proofs.Scan.Literal

/-!
# A quoted text is bound and nothing else

Putting another text between the quotes of a text token changes that token, moves the tokens
behind it and leaves all others as they are.  The query then differs in that one text only, and
since neither the lines of a statement nor the numbers of its parameters depend on the texts, the
statement differs in the value of the one parameter that the text is bound to
(`literal_changes_its_parameter_only`).
-/

set_option autoImplicit false

namespace ErrorQuery

open Text

/-! ### Statements of queries that differ in their texts only -/

namespace Sql

/-- What stands around the placeholders of a comparison does not depend on the texts. -/
theorem frame?_congr {operator : Operator} {operand operand' : Operand}
    (h : operand.Like operand') : frame? operator operand = frame? operator operand' := by
  cases h with
  | single s t => cases operator <;> rfl
  | @list ss ts hlen =>
      cases ss with
      | nil =>
          rw [List.length_nil, eq_comm, List.length_eq_zero_iff] at hlen
          rw [hlen]
      | cons s ss =>
          cases ts with
          | nil => contradiction
          | cons t ts => cases operator <;> rfl

/-- The lines of conditions do not depend on the texts. -/
theorem conditionLines?_congr {conditions conditions' : List Condition}
    (h : List.Forall₂ Condition.Like conditions conditions') (connector : Option Connector)
    (number : Nat) :
    conditionLines? connector number conditions = conditionLines? connector number conditions' := by
  induction h generalizing connector number with
  | nil => rfl
  | cons hcondition _ ih =>
      simp only [conditionLines?, conditionLine?, hcondition.field, hcondition.operator,
        hcondition.connector, frame?_congr hcondition.operand,
        hcondition.operand.length_values, ih]

/-- The lines of a statement do not depend on the texts of its query. -/
theorem statementLines?_congr {query query' : Query} (h : query.Like query') :
    statementLines? query = statementLines? query' := by
  unfold statementLines?
  rw [conditionLines?_congr h.conditions, h.limit]

end Sql

/-- Like conditions bind texts for the same fields. -/
theorem map_fst_bindings_congr {conditions conditions' : List Condition}
    (h : List.Forall₂ Condition.Like conditions conditions') :
    (conditions.flatMap Condition.bindings).map Prod.fst =
      (conditions'.flatMap Condition.bindings).map Prod.fst := by
  induction h with
  | nil => rfl
  | @cons condition condition' _ _ hcondition _ ih =>
      have hfst : condition.bindings.map Prod.fst = condition'.bindings.map Prod.fst := by
        unfold Condition.bindings
        rw [List.map_map, List.map_map]
        show condition.operand.values.map (fun _ => condition.field) =
          condition'.operand.values.map (fun _ => condition'.field)
        rw [List.map_const', List.map_const', hcondition.field, hcondition.operand.length_values]
      rw [List.flatMap_cons, List.flatMap_cons, List.map_append, List.map_append, hfst, ih]

/-- Bindings of the same fields whose texts differ at one place differ there only. -/
theorem exists_binding_of_texts {bindings bindings' : List (Field × String)}
    {before after : List String} {u v : String}
    (hfst : bindings.map Prod.fst = bindings'.map Prod.fst)
    (hu : bindings.map Prod.snd = before ++ u :: after)
    (hv : bindings'.map Prod.snd = before ++ v :: after) :
    ∃ front field back, bindings = front ++ (field, u) :: back ∧
      bindings' = front ++ (field, v) :: back ∧ front.length = before.length := by
  induction before generalizing bindings bindings' with
  | nil =>
      obtain ⟨⟨field, s⟩, back, rfl, rfl, hback⟩ := List.map_eq_cons_iff.mp hu
      obtain ⟨⟨field', s'⟩, back', rfl, rfl, hback'⟩ := List.map_eq_cons_iff.mp hv
      rw [List.map_cons, List.map_cons, List.cons.injEq] at hfst
      obtain ⟨rfl, hfst⟩ : field = field' ∧ _ := hfst
      have hsame : back = back' := by
        rw [← List.zip_unzip back, ← List.zip_unzip back', List.unzip_eq_map, List.unzip_eq_map,
          hfst, hback, hback']
      rw [hsame]
      exact ⟨[], field, back', rfl, rfl, rfl⟩
  | cons w before ih =>
      obtain ⟨⟨field, s⟩, rest, rfl, rfl, hrest⟩ := List.map_eq_cons_iff.mp hu
      obtain ⟨⟨field', s'⟩, rest', rfl, hs, hrest'⟩ := List.map_eq_cons_iff.mp hv
      rw [List.map_cons, List.map_cons, List.cons.injEq] at hfst
      obtain ⟨rfl, hfst⟩ : field = field' ∧ _ := hfst
      obtain ⟨front, f, back, rfl, rfl, hlen⟩ := ih hfst hrest hrest'
      obtain rfl : s' = s := hs
      exact ⟨(field, s') :: front, f, back, rfl, rfl, by simp [hlen]⟩

/-! ### Tokens that have moved -/

/-- The same token, the given number of bytes further on. -/
structure Token.Moved (distance : Int) (token token' : Token) : Prop where
  kind : token'.kind = token.kind
  value : token'.value = token.value
  start : (token'.span.start : Int) = token.span.start + distance
  stop : (token'.span.stop : Int) = token.span.stop + distance

/-- Tokens shifted by two distances differ by what lies between the distances. -/
theorem Token.moved_map_shift (tokens : List Token) {k k' : Nat} {distance : Int}
    (h : (k' : Int) = k + distance) :
    List.Forall₂ (Token.Moved distance) (tokens.map (.shift k)) (tokens.map (.shift k')) := by
  rw [List.forall₂_map_left_iff, List.forall₂_map_right_iff, List.forall₂_same]
  intro token _
  refine ⟨rfl, rfl, ?_, ?_⟩
  · show ((token.span.start + k' : Nat) : Int) = (token.span.start + k : Nat) + distance
    omega
  · show ((token.span.stop + k' : Nat) : Int) = (token.span.stop + k : Nat) + distance
    omega

/-- Tokens shifted by two distances are alike. -/
theorem Token.like_map_shift (tokens : List Token) (k k' : Nat) :
    List.Forall₂ Token.Like (tokens.map (.shift k)) (tokens.map (.shift k')) := by
  rw [List.forall₂_map_left_iff, List.forall₂_map_right_iff, List.forall₂_same]
  exact fun token _ => ⟨rfl, fun _ => rfl⟩

/-- A shift of tokens leaves their texts alone. -/
theorem Token.texts_map_shift (tokens : List Token) (k : Nat) :
    Token.texts (tokens.map (.shift k)) = Token.texts tokens := by
  unfold Token.texts
  rw [List.filter_map, List.map_map]
  rfl

/-! ### Statements of texts that differ between two quotes -/

/-- Where the tokens differ in one text only, so do the parameters, and nothing else differs. -/
theorem Config.compile_of_literal {config : Config} {text text' : String}
    {front rest : List Token} {u v : List Char} {position k k' : Nat} {payload : Sql.Payload}
    (hu : config.strategy.body text.toList =
      front ++ .literal position u :: rest.map (.shift k))
    (hv : config.strategy.body text'.toList =
      front ++ .literal position v :: rest.map (.shift k'))
    (h : config.compile text = .ok payload) :
    ∃ sql earlier later width,
      payload = ⟨config.lineEnding.text, sql,
        earlier ++ .text ((Token.texts front).length + 1) width (String.ofList u) :: later⟩ ∧
      config.compile text' = .ok ⟨config.lineEnding.text, sql,
        earlier ++ .text ((Token.texts front).length + 1) width (String.ofList v) :: later⟩ := by
  obtain ⟨query, hparse, hgenerate⟩ := compile_eq_ok_iff.mp h
  obtain ⟨lines, hlines, rfl⟩ := Sql.generate_eq_ok_iff.mp hgenerate
  have hsentence := sentence_of_parse hparse
  have hlike : List.Forall₂ Token.Like (config.strategy.body text.toList)
      (config.strategy.body text'.toList) := by
    rw [hu, hv]
    refine List.rel_append (List.forall₂_same.mpr fun token _ => ⟨rfl, fun _ => rfl⟩) ?_
    exact .cons ⟨rfl, fun hkind => absurd rfl hkind⟩ (Token.like_map_shift rest k k')
  obtain ⟨query', hsentence', hquery⟩ := hsentence.transfer hlike
  have hparse' : config.parse text' = .ok query' := parse_eq_ok_iff.mpr hsentence'.completes
  -- the texts of either query are those in front, that between the quotes, and those behind
  have htexts (w : List Char) (n : Nat) :
      Token.texts (front ++ .literal position w :: rest.map (.shift n)) =
        Token.texts front ++ String.ofList w :: Token.texts rest := by
    rw [Token.texts_append, Token.texts_cons_of_text rfl, Token.texts_map_shift]
    rfl
  have hsnd : query.bindings.map Prod.snd =
      Token.texts front ++ String.ofList u :: Token.texts rest := by
    rw [Query.map_snd_bindings, ← hsentence.texts, hu, htexts]
  have hsnd' : query'.bindings.map Prod.snd =
      Token.texts front ++ String.ofList v :: Token.texts rest := by
    rw [Query.map_snd_bindings, ← hsentence'.texts, hv, htexts]
  have hfst : query.bindings.map Prod.fst = query'.bindings.map Prod.fst :=
    map_fst_bindings_congr hquery.conditions
  obtain ⟨before, field, after, hbindings, hbindings', hlength⟩ :=
    exists_binding_of_texts hfst hsnd hsnd'
  have hparameters (s : String) :
      Sql.rangeParameters query.range ++ Sql.textParameters 1 (before ++ (field, s) :: after) =
        (Sql.rangeParameters query.range ++ Sql.textParameters 1 before) ++
          .text ((Token.texts front).length + 1) field.width s ::
            Sql.textParameters ((Token.texts front).length + 2) after := by
    rw [Sql.textParameters_append, Sql.textParameters, hlength, List.append_assoc,
      Nat.add_comm 1]
  refine ⟨Sql.lineText config.lineEnding.text lines,
    Sql.rangeParameters query.range ++ Sql.textParameters 1 before,
    Sql.textParameters ((Token.texts front).length + 2) after, field.width, ?_, ?_⟩
  · rw [hbindings, hparameters]
  · refine compile_eq_ok_iff.mpr ⟨query', hparse', Sql.generate_eq_ok_iff.mpr ⟨lines, ?_, ?_⟩⟩
    · rw [← Sql.statementLines?_congr hquery, hlines]
    · rw [← hquery.range, hbindings', hparameters]

/-- A text with a part of it in quotes. -/
def withQuoted (before inside after : String) : String :=
  before ++ "'" ++ inside ++ "'" ++ after

/-- A quoted text stands between its quotes and the texts around them. -/
theorem toList_withQuoted (before inside after : String) :
    (withQuoted before inside after).toList =
      before.toList ++ '\'' :: (inside.toList ++ '\'' :: after.toList) := by
  have hquote : "'".toList = ['\''] := by decide
  simp [withQuoted, hquote]

/-- Around a text token the tokens are the same for every text that may stand in its place. -/
theorem Strategy.exists_tokens_withQuoted {strategy : Strategy} {before u after : String}
    {token : Token} (hmem : token ∈ strategy.tokenize (withQuoted before u after))
    (hkind : token.kind = .text)
    (hspan : token.span =
      ⟨byteLength before.toList, byteLength before.toList + (byteLength u.toList + 2)⟩) :
    '\'' ∉ u.toList ∧ ∃ front, ∀ w : String, '\'' ∉ w.toList →
      strategy.body (withQuoted before w after).toList =
        front ++ .literal (byteLength before.toList) w.toList ::
          (strategy.body after.toList).map
            (.shift (byteLength before.toList + (byteLength w.toList + 2))) ∧
      strategy.tokenize (withQuoted before w after) =
        front ++ .literal (byteLength before.toList) w.toList ::
          (strategy.tokenize after).map
            (.shift (byteLength before.toList + (byteLength w.toList + 2))) := by
  -- the token is not the end of the query, so the scan made it
  have hbody : token ∈ strategy.body (before.toList ++ '\'' :: (u.toList ++ '\'' :: after.toList)) := by
    rw [tokenize_eq_body, toList_withQuoted, List.mem_append, List.mem_singleton] at hmem
    rcases hmem with hmem | rfl
    · exact hmem
    · contradiction
  have hquotes := ne_quote_of_mem_body hbody hkind hspan
  obtain ⟨front, hfront⟩ := exists_body_literal hbody (congrArg Span.start hspan)
  refine ⟨fun hquote => hquotes '\'' hquote rfl, front, fun w hw => ?_⟩
  have hinside := hfront w.toList after.toList fun c hc heq => hw (heq ▸ hc)
  rw [← toList_withQuoted] at hinside
  refine ⟨hinside, ?_⟩
  have hend : byteLength (withQuoted before w after).toList =
      byteLength after.toList + (byteLength before.toList + (byteLength w.toList + 2)) := by
    have hsize : '\''.utf8Size = 1 := by decide
    rw [toList_withQuoted]
    simp only [byteLength_append, byteLength_cons, hsize]
    omega
  rw [tokenize_eq_body, hinside, tokenize_eq_body, hend, List.map_append, List.append_assoc,
    List.cons_append]
  rfl

/-- If a text token spans the quoted part of a text, any other text without quotes may stand there:
the tokens in front stay, those behind are moved, and the two texts have statements together, which
differ only in the value of the parameter that the quoted part is bound to. -/
theorem literal_changes_its_parameter_only (strategy : Strategy) (before after u v : String)
    (hu : ∃ token ∈ strategy.tokenize (withQuoted before u after), token.kind = .text ∧
      token.span = ⟨before.utf8ByteSize, before.utf8ByteSize + (u.utf8ByteSize + 2)⟩)
    (hv : '\'' ∉ v.toList) :
    ∃ front back back',
      strategy.tokenize (withQuoted before u after) =
        front ++ ⟨.text, u, ⟨before.utf8ByteSize, before.utf8ByteSize + (u.utf8ByteSize + 2)⟩⟩ ::
          back ∧
      strategy.tokenize (withQuoted before v after) =
        front ++ ⟨.text, v, ⟨before.utf8ByteSize, before.utf8ByteSize + (v.utf8ByteSize + 2)⟩⟩ ::
          back' ∧
      List.Forall₂ (Token.Moved (v.utf8ByteSize - u.utf8ByteSize)) back back' ∧
      ∀ lineEnding : LineEnding,
        ((∃ e, Config.compile ⟨strategy, lineEnding⟩ (withQuoted before u after) = .error e) ∧
          ∃ e, Config.compile ⟨strategy, lineEnding⟩ (withQuoted before v after) = .error e) ∨
        ∃ sql earlier later width,
          Config.compile ⟨strategy, lineEnding⟩ (withQuoted before u after) =
            .ok ⟨lineEnding.text, sql,
              earlier ++ .text ((Token.texts front).length + 1) width u :: later⟩ ∧
          Config.compile ⟨strategy, lineEnding⟩ (withQuoted before v after) =
            .ok ⟨lineEnding.text, sql,
              earlier ++ .text ((Token.texts front).length + 1) width v :: later⟩ := by
  obtain ⟨token, hmem, hkind, hspan⟩ := hu
  simp only [← byteLength_toList] at hspan ⊢
  obtain ⟨hu, front, hfront⟩ := Strategy.exists_tokens_withQuoted hmem hkind hspan
  obtain ⟨hbody, htokens⟩ := hfront u hu
  obtain ⟨hbody', htokens'⟩ := hfront v hv
  have hliteral (w : String) : Token.literal (byteLength before.toList) w.toList =
      ⟨.text, w, ⟨byteLength before.toList, byteLength before.toList + (byteLength w.toList + 2)⟩⟩ := by
    rw [Token.literal, String.ofList_toList]
  rw [hliteral] at htokens htokens'
  refine ⟨front, _, _, htokens, htokens', Token.moved_map_shift _ (by omega), fun lineEnding => ?_⟩
  cases hcompile : Config.compile ⟨strategy, lineEnding⟩ (withQuoted before u after) with
  | ok payload =>
      right
      obtain ⟨sql, earlier, later, width, rfl, hcompile'⟩ :=
        Config.compile_of_literal hbody hbody' hcompile
      rw [String.ofList_toList] at hcompile' ⊢
      exact ⟨sql, earlier, later, width, rfl, hcompile'⟩
  | error e =>
      -- if the other text had a statement, so would this one
      left
      refine ⟨⟨e, rfl⟩, ?_⟩
      cases hcompile' : Config.compile ⟨strategy, lineEnding⟩ (withQuoted before v after) with
      | error e' => exact ⟨e', rfl⟩
      | ok payload =>
          obtain ⟨sql, earlier, later, width, -, hback⟩ :=
            Config.compile_of_literal hbody' hbody hcompile'
          rw [hcompile] at hback
          contradiction

/-- What looks like a further condition is bound like any other text. -/
theorem literal_changes_its_parameter_only_in_query :
    ∃ sql earlier later number width,
      Config.compile ⟨.precedence, .lf⟩ (withQuoted "match app = " "a"
          " between 2016-01-01 00:00:00 and 2016-01-02 00:00:00") =
        .ok ⟨"\n", sql, earlier ++ .text number width "a" :: later⟩ ∧
      Config.compile ⟨.precedence, .lf⟩ (withQuoted "match app = " "x or msg = "
          " between 2016-01-01 00:00:00 and 2016-01-02 00:00:00") =
        .ok ⟨"\n", sql, earlier ++ .text number width "x or msg = " :: later⟩ := by
  obtain ⟨front, -, -, -, -, -, hcompile⟩ := literal_changes_its_parameter_only .precedence
    "match app = " " between 2016-01-01 00:00:00 and 2016-01-02 00:00:00" "a" "x or msg = "
    ⟨⟨.text, "a", ⟨12, 15⟩⟩, by decide +kernel, rfl, by decide +kernel⟩ (by decide +kernel)
  obtain ⟨⟨e, herror⟩, -⟩ | ⟨sql, earlier, later, width, hu, hv⟩ := hcompile .lf
  · have hok : (Config.parse ⟨.precedence, .lf⟩ (withQuoted "match app = " "a"
        " between 2016-01-01 00:00:00 and 2016-01-02 00:00:00")).toBool = true := by
      decide +kernel
    cases hparse : Config.parse ⟨.precedence, .lf⟩ (withQuoted "match app = " "a"
        " between 2016-01-01 00:00:00 and 2016-01-02 00:00:00") with
    | error e =>
        rw [hparse] at hok
        exact absurd hok Bool.false_ne_true
    | ok query =>
        obtain ⟨payload, hpayload⟩ := Config.exists_compile_of_parse hparse
        rw [hpayload] at herror
        exact absurd herror (by simp)
  · exact ⟨sql, earlier, later, _, width, hu, hv⟩

end ErrorQuery
