import ErrorQuery.Proofs.Json.Strings

/-!
# The grammar of JSON texts

`Json.IsText` says which text denotes which value: a value with gaps around it, made of objects,
arrays, strings and nulls.  Numbers and truth values do not occur in the texts that are read by this
grammar, so it has no rules for them.  Members keep their order, and a name may come several times;
what to make of that is left to those who read the value.

Each rule relates a text to what its front denotes and to the text behind it.  A text denotes one
value at most (`Json.IsText.unique`): where a rule applies, its first character that is no gap tells
which one.
-/

set_option autoImplicit false

namespace ErrorQuery.Json

mutual

/-- A value at the front of a text. -/
inductive ValueAt : List Char → Json → List Char → Prop where
  | null {rest : List Char} : ValueAt ('n' :: 'u' :: 'l' :: 'l' :: rest) .null rest
  | string {cs rest : List Char} {s : String} :
      StringTail cs s.toList rest → ValueAt ('"' :: cs) (.string s) rest
  | array {cs rest : List Char} {items : List Json} :
      ItemsAt cs items rest → ValueAt ('[' :: cs) (.array items) rest
  | object {cs rest : List Char} {members : List (String × Json)} :
      MembersAt cs members rest → ValueAt ('\x7b' :: cs) (.object members) rest

/-- A value with gaps before it. -/
inductive ElementAt : List Char → Json → List Char → Prop where
  | mk {cs ds rest : List Char} {j : Json} :
      Gaps cs ds → ValueAt ds j rest → ElementAt cs j rest

/-- The items of an array, up to its bracket. -/
inductive ItemsAt : List Char → List Json → List Char → Prop where
  | none {cs rest : List Char} : Gaps cs (']' :: rest) → ItemsAt cs [] rest
  | some {cs ds rest : List Char} {j : Json} {items : List Json} :
      ElementAt cs j ds → MoreItemsAt ds items rest → ItemsAt cs (j :: items) rest

/-- The items of an array behind one of them, up to the bracket. -/
inductive MoreItemsAt : List Char → List Json → List Char → Prop where
  | close {cs rest : List Char} : Gaps cs (']' :: rest) → MoreItemsAt cs [] rest
  | comma {cs ds es rest : List Char} {j : Json} {items : List Json} :
      Gaps cs (',' :: ds) → ElementAt ds j es → MoreItemsAt es items rest →
      MoreItemsAt cs (j :: items) rest

/-- A member of an object: a name, a colon and a value. -/
inductive MemberAt : List Char → String → Json → List Char → Prop where
  | mk {cs ds es fs rest : List Char} {name : String} {j : Json} :
      Gaps cs ('"' :: ds) → StringTail ds name.toList es → Gaps es (':' :: fs) →
      ElementAt fs j rest → MemberAt cs name j rest

/-- The members of an object, up to its brace. -/
inductive MembersAt : List Char → List (String × Json) → List Char → Prop where
  | none {cs rest : List Char} : Gaps cs ('\x7d' :: rest) → MembersAt cs [] rest
  | some {cs ds rest : List Char} {name : String} {j : Json} {members : List (String × Json)} :
      MemberAt cs name j ds → MoreMembersAt ds members rest →
      MembersAt cs ((name, j) :: members) rest

/-- The members of an object behind one of them, up to the brace. -/
inductive MoreMembersAt : List Char → List (String × Json) → List Char → Prop where
  | close {cs rest : List Char} : Gaps cs ('\x7d' :: rest) → MoreMembersAt cs [] rest
  | comma {cs ds es rest : List Char} {name : String} {j : Json}
      {members : List (String × Json)} :
      Gaps cs (',' :: ds) → MemberAt ds name j es → MoreMembersAt es members rest →
      MoreMembersAt cs ((name, j) :: members) rest

end

/-- The text denotes the value. -/
def IsText (text : String) (j : Json) : Prop :=
  ∃ rest, ElementAt text.toList j rest ∧ Gaps rest []

/-! ### Plain texts -/

/-- A string that needs no escape stands between two quotes. -/
theorem ElementAt.of_plain {s : String}
    (h : s.toList.all fun c => 0x20 ≤ c.toNat ∧ c ≠ '"' ∧ c ≠ '\\') (rest : List Char) :
    ElementAt ('"' :: (s.toList ++ '"' :: rest)) (.string s) rest :=
  .mk .nil (.string (.of_plain h rest))

/-- A member whose name needs no escape, without gaps. -/
theorem MemberAt.of_plain {name : String}
    (h : name.toList.all fun c => 0x20 ≤ c.toNat ∧ c ≠ '"' ∧ c ≠ '\\') {cs rest : List Char} {j : Json}
    (hvalue : ElementAt cs j rest) :
    MemberAt ('"' :: (name.toList ++ '"' :: ':' :: cs)) name j rest :=
  .mk .nil (.of_plain h _) .nil hvalue

/-- An object of one member, a string, where nothing needs an escape. -/
theorem IsText.of_plain_member {text name s : String}
    (hname : name.toList.all fun c => 0x20 ≤ c.toNat ∧ c ≠ '"' ∧ c ≠ '\\')
    (hs : s.toList.all fun c => 0x20 ≤ c.toNat ∧ c ≠ '"' ∧ c ≠ '\\')
    (htext : text.toList =
      '\x7b' :: '"' :: (name.toList ++ '"' :: ':' :: '"' :: (s.toList ++ '"' :: ['\x7d']))) :
    IsText text (.object [(name, .string s)]) := by
  have hmember := MemberAt.of_plain hname (ElementAt.of_plain hs ['\x7d'])
  rw [IsText, htext]
  exact ⟨[], .mk .nil (.object (.some hmember (.close .nil))), .nil⟩

/-! ### Where a rule applies -/

/-- A value begins with one of four characters. -/
theorem ValueAt.head {cs rest : List Char} {j : Json} (h : ValueAt cs j rest) :
    ∃ c ds, cs = c :: ds ∧ c ∈ ['n', '"', '[', '\x7b'] := by
  cases h <;> exact ⟨_, _, rfl, by simp⟩

/-- Skipping gaps leads to the value behind them. -/
theorem skipGaps_of_value {cs ds rest : List Char} {j : Json} (hgaps : Gaps cs ds)
    (hvalue : ValueAt ds j rest) : skipGaps cs = ds := by
  obtain ⟨c, es, rfl, hc⟩ := hvalue.head
  have hsolid : isGap c = false := by
    simp only [List.mem_cons, List.not_mem_nil, or_false] at hc
    rcases hc with rfl | rfl | rfl | rfl <;> rfl
  exact (skipGaps_eq_cons_iff hsolid).mpr hgaps

/-- A value stands where the gaps end. -/
theorem elementAt_iff {cs rest : List Char} {j : Json} :
    ElementAt cs j rest ↔ ValueAt (skipGaps cs) j rest := by
  constructor
  · rintro ⟨hgaps, hvalue⟩
    rwa [skipGaps_of_value hgaps hvalue]
  · exact .mk (gaps_skipGaps cs)

/-- Gaps in front of a value do not matter. -/
theorem elementAt_skipGaps {cs rest : List Char} {j : Json} :
    ElementAt (skipGaps cs) j rest ↔ ElementAt cs j rest := by
  rw [elementAt_iff, elementAt_iff, ← skipGaps_of_gaps (gaps_skipGaps cs)]

/-- A member begins with a quote behind gaps and goes on with its name, a colon and its value. -/
theorem memberAt_iff {cs rest : List Char} {name : String} {j : Json} :
    MemberAt cs name j rest ↔ ∃ ds es fs, skipGaps cs = '"' :: ds ∧
      StringTail ds name.toList es ∧ Gaps es (':' :: fs) ∧ ElementAt fs j rest := by
  constructor
  · rintro ⟨hquote, hname, hcolon, helement⟩
    exact ⟨_, _, _, (skipGaps_eq_cons_iff (by decide)).mpr hquote, hname, hcolon, helement⟩
  · rintro ⟨ds, es, fs, hquote, hname, hcolon, helement⟩
    exact .mk ((skipGaps_eq_cons_iff (by decide)).mp hquote) hname hcolon helement

/-- A quote is no gap. -/
theorem skipGaps_quote (cs : List Char) : skipGaps ('"' :: cs) = '"' :: cs := by
  rw [skipGaps_eq_cons_iff (by decide)]
  exact .nil

/-- A member stands where a quote is the first character that is no gap. -/
theorem memberAt_quote_iff {cs ds rest : List Char} (h : skipGaps cs = '"' :: ds) {name : String}
    {j : Json} : MemberAt ('"' :: ds) name j rest ↔ MemberAt cs name j rest := by
  rw [memberAt_iff, memberAt_iff, h, skipGaps_quote]

/-! ### One value only -/

/-- Gaps end at the first character that is none. -/
theorem Gaps.unique {cs rest rest' : List Char} {c c' : Char} (hc : isGap c = false)
    (hc' : isGap c' = false) (h : Gaps cs (c :: rest)) (h' : Gaps cs (c' :: rest')) :
    c = c' ∧ rest = rest' := by
  rw [← skipGaps_eq_cons_iff hc] at h
  rw [← skipGaps_eq_cons_iff hc', h] at h'
  exact List.cons.inj h'

/-- A text has one string up to its closing quote. -/
theorem StringTail.unique {cs body body' rest rest' : List Char} (h : StringTail cs body rest)
    (h' : StringTail cs body' rest') : body = body' ∧ rest = rest' := by
  rw [← stringBody_eq_ok_iff] at h h'
  rw [h, Except.ok.injEq, Prod.mk.injEq] at h'
  exact h'

/-- Where a value begins, the first character that is no gap is that of a value. -/
theorem ElementAt.head {cs ds rest : List Char} {j : Json} (h : ElementAt cs j rest) {c : Char}
    (hc : isGap c = false) (hgaps : Gaps cs (c :: ds)) : c ∈ ['n', '"', '[', '\x7b'] := by
  rw [elementAt_iff, (skipGaps_eq_cons_iff hc).mpr hgaps] at h
  obtain ⟨d, es, heq, hd⟩ := h.head
  rwa [(List.cons.inj heq).1]

mutual

/-- A text has one value at its front. -/
theorem ValueAt.unique {cs rest : List Char} {j : Json} (h : ValueAt cs j rest) {j' : Json}
    {rest' : List Char} (h' : ValueAt cs j' rest') : j = j' ∧ rest = rest' := by
  match h with
  | .null =>
      cases h'
      exact ⟨rfl, rfl⟩
  | .string hbody =>
      cases h' with
      | string hbody' =>
          obtain ⟨hs, rfl⟩ := hbody.unique hbody'
          exact ⟨congrArg Json.string (String.toList_inj.mp hs), rfl⟩
  | .array hitems =>
      cases h' with
      | array hitems' =>
          obtain ⟨rfl, rfl⟩ := hitems.unique hitems'
          exact ⟨rfl, rfl⟩
  | .object hmembers =>
      cases h' with
      | object hmembers' =>
          obtain ⟨rfl, rfl⟩ := hmembers.unique hmembers'
          exact ⟨rfl, rfl⟩
termination_by structural h

/-- A text has one value behind the gaps at its front. -/
theorem ElementAt.unique {cs rest : List Char} {j : Json} (h : ElementAt cs j rest) {j' : Json}
    {rest' : List Char} (h' : ElementAt cs j' rest') : j = j' ∧ rest = rest' := by
  match h with
  | .mk hgaps hvalue =>
      cases h' with
      | mk hgaps' hvalue' =>
          have hsame := skipGaps_of_value hgaps hvalue
          rw [skipGaps_of_value hgaps' hvalue'] at hsame
          exact hvalue.unique (hsame ▸ hvalue')
termination_by structural h

/-- A text has one list of items up to the bracket. -/
theorem ItemsAt.unique {cs rest : List Char} {items : List Json} (h : ItemsAt cs items rest)
    {items' : List Json} {rest' : List Char} (h' : ItemsAt cs items' rest') :
    items = items' ∧ rest = rest' := by
  match h with
  | .none hgaps =>
      cases h' with
      | none hgaps' => exact ⟨rfl, (hgaps.unique (by decide) (by decide) hgaps').2⟩
      | some helement' _ => exact absurd (helement'.head (by decide) hgaps) (by decide)
  | .some helement hmore =>
      cases h' with
      | none hgaps' => exact absurd (helement.head (by decide) hgaps') (by decide)
      | some helement' hmore' =>
          obtain ⟨rfl, rfl⟩ := helement.unique helement'
          obtain ⟨rfl, rfl⟩ := hmore.unique hmore'
          exact ⟨rfl, rfl⟩
termination_by structural h

/-- A text has one list of further items up to the bracket. -/
theorem MoreItemsAt.unique {cs rest : List Char} {items : List Json} (h : MoreItemsAt cs items rest)
    {items' : List Json} {rest' : List Char} (h' : MoreItemsAt cs items' rest') :
    items = items' ∧ rest = rest' := by
  match h with
  | .close hgaps =>
      cases h' with
      | close hgaps' => exact ⟨rfl, (hgaps.unique (by decide) (by decide) hgaps').2⟩
      | comma hgaps' _ _ =>
          exact absurd (hgaps.unique (by decide) (by decide) hgaps').1 (by decide)
  | .comma hgaps helement hmore =>
      cases h' with
      | close hgaps' => exact absurd (hgaps.unique (by decide) (by decide) hgaps').1 (by decide)
      | comma hgaps' helement' hmore' =>
          obtain ⟨-, rfl⟩ := hgaps.unique (by decide) (by decide) hgaps'
          obtain ⟨rfl, rfl⟩ := helement.unique helement'
          obtain ⟨rfl, rfl⟩ := hmore.unique hmore'
          exact ⟨rfl, rfl⟩
termination_by structural h

/-- A text has one member at its front. -/
theorem MemberAt.unique {cs rest : List Char} {name : String} {j : Json}
    (h : MemberAt cs name j rest) {name' : String} {j' : Json} {rest' : List Char}
    (h' : MemberAt cs name' j' rest') : name = name' ∧ j = j' ∧ rest = rest' := by
  match h with
  | .mk hgaps hname hcolon helement =>
      cases h' with
      | mk hgaps' hname' hcolon' helement' =>
          obtain ⟨-, rfl⟩ := hgaps.unique (by decide) (by decide) hgaps'
          obtain ⟨hs, rfl⟩ := hname.unique hname'
          obtain ⟨-, rfl⟩ := hcolon.unique (by decide) (by decide) hcolon'
          exact ⟨String.toList_inj.mp hs, helement.unique helement'⟩
termination_by structural h

/-- A text has one list of members up to the brace. -/
theorem MembersAt.unique {cs rest : List Char} {members : List (String × Json)}
    (h : MembersAt cs members rest) {members' : List (String × Json)} {rest' : List Char}
    (h' : MembersAt cs members' rest') : members = members' ∧ rest = rest' := by
  match h with
  | .none hgaps =>
      cases h' with
      | none hgaps' => exact ⟨rfl, (hgaps.unique (by decide) (by decide) hgaps').2⟩
      | some hmember' _ =>
          obtain ⟨hquote, -⟩ := hmember'
          exact absurd (hgaps.unique (by decide) (by decide) hquote).1 (by decide)
  | .some hmember hmore =>
      cases h' with
      | none hgaps' =>
          obtain ⟨hquote, -⟩ := hmember
          exact absurd (hgaps'.unique (by decide) (by decide) hquote).1 (by decide)
      | some hmember' hmore' =>
          obtain ⟨rfl, rfl, rfl⟩ := hmember.unique hmember'
          obtain ⟨rfl, rfl⟩ := hmore.unique hmore'
          exact ⟨rfl, rfl⟩
termination_by structural h

/-- A text has one list of further members up to the brace. -/
theorem MoreMembersAt.unique {cs rest : List Char} {members : List (String × Json)}
    (h : MoreMembersAt cs members rest) {members' : List (String × Json)} {rest' : List Char}
    (h' : MoreMembersAt cs members' rest') : members = members' ∧ rest = rest' := by
  match h with
  | .close hgaps =>
      cases h' with
      | close hgaps' => exact ⟨rfl, (hgaps.unique (by decide) (by decide) hgaps').2⟩
      | comma hgaps' _ _ =>
          exact absurd (hgaps.unique (by decide) (by decide) hgaps').1 (by decide)
  | .comma hgaps hmember hmore =>
      cases h' with
      | close hgaps' => exact absurd (hgaps.unique (by decide) (by decide) hgaps').1 (by decide)
      | comma hgaps' hmember' hmore' =>
          obtain ⟨-, rfl⟩ := hgaps.unique (by decide) (by decide) hgaps'
          obtain ⟨rfl, rfl, rfl⟩ := hmember.unique hmember'
          obtain ⟨rfl, rfl⟩ := hmore.unique hmore'
          exact ⟨rfl, rfl⟩
termination_by structural h

end

/-- A text denotes one value at most. -/
theorem IsText.unique {text : String} {j j' : Json} (h : IsText text j) (h' : IsText text j') :
    j = j' := by
  obtain ⟨rest, helement, -⟩ := h
  obtain ⟨rest', helement', -⟩ := h'
  exact (helement.unique helement').1

end ErrorQuery.Json
