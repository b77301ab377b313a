import ErrorQuery.Proofs.Scan.Origin

/-!
# Where tokens stand in a text

A token keeps its value and its span.  Both point at the same place: the bytes of the span are the
characters that the token was read from, which are its value, or its value between quotes if it is
a quoted text (`Token.written`).  This holds of every token that either strategy makes
(`Strategy.standsIn_of_mem_body`), and so a span begins and ends between characters and cuts out
what was read (`Token.StandsIn.boundaries`, `Token.StandsIn.slice_eq`).
-/

set_option autoImplicit false

namespace ErrorQuery

open Text

namespace Text

/-- The byte `n` of a text is the beginning of a character or the end of the text. -/
def IsBoundary (cs : List Char) (n : Nat) : Prop :=
  ∃ before after, cs = before ++ after ∧ byteLength before = n

/-- Of two fronts of a text the longer one goes on from the shorter one. -/
theorem exists_append_of_byteLength_le {cs ds cs' ds' : List Char} (h : cs ++ ds = cs' ++ ds')
    (hle : byteLength cs ≤ byteLength cs') : ∃ middle, cs' = cs ++ middle ∧ ds = middle ++ ds' := by
  obtain ⟨middle, hcs', hds⟩ | ⟨middle, rfl, rfl⟩ := List.append_eq_append_iff.mp h
  · exact ⟨middle, hcs', hds⟩
  · have hempty : middle = [] := by
      rw [byteLength_append] at hle
      exact byteLength_eq_zero.mp (by omega)
    exact ⟨[], by simp [hempty], by simp [hempty]⟩

/-- A place inside a stretch of a text parts the stretch, and something of it is left behind the
place. -/
theorem exists_parts_of_byteLength_lt {front inside rest before after : List Char}
    (h : front ++ (inside ++ rest) = before ++ after) (hlow : byteLength front ≤ byteLength before)
    (hhigh : byteLength before < byteLength front + byteLength inside) :
    ∃ left right, before = front ++ left ∧ inside = left ++ right ∧ after = right ++ rest ∧
      right ≠ [] := by
  obtain ⟨left, rfl, hinside⟩ := exists_append_of_byteLength_le h hlow
  rw [byteLength_append] at hhigh
  obtain ⟨right, rfl, hafter⟩ := exists_append_of_byteLength_le hinside.symm (by omega)
  refine ⟨left, right, rfl, rfl, hafter, ?_⟩
  rintro rfl
  rw [List.append_nil] at hhigh
  omega

/-- Behind the beginning of a character comes its end. -/
theorem IsBoundary.le_of_lt {before after : List Char} {c : Char} {n : Nat}
    (h : IsBoundary (before ++ c :: after) n) (hlt : byteLength before < n) :
    byteLength (before ++ [c]) ≤ n := by
  obtain ⟨front, rest, hsplit, rfl⟩ := h
  obtain ⟨middle, rfl, hrest⟩ := exists_append_of_byteLength_le hsplit (Nat.le_of_lt hlt)
  cases middle with
  | nil => simp at hlt
  | cons d middle =>
      obtain ⟨rfl, -⟩ := List.cons.inj hrest
      simp only [byteLength_append, byteLength_cons, byteLength_nil]
      omega

end Text

namespace Token

/-- The characters that a token was read from. -/
def written (token : Token) : List Char :=
  if token.kind = .text then '\'' :: (token.value.toList ++ ['\'']) else token.value.toList

/-- The characters of the token are those of the text at its span. -/
def StandsIn (token : Token) (cs : List Char) : Prop :=
  ∃ before after, cs = before ++ token.written ++ after ∧
    token.span = ⟨byteLength before, byteLength before + byteLength token.written⟩

namespace StandsIn

variable {token : Token} {cs : List Char}

/-- A token begins and ends between characters. -/
theorem boundaries (h : token.StandsIn cs) :
    IsBoundary cs token.span.start ∧ IsBoundary cs token.span.stop := by
  obtain ⟨before, after, rfl, hspan⟩ := h
  rw [hspan]
  refine ⟨⟨before, token.written ++ after, by simp, rfl⟩, ⟨before ++ token.written, after, rfl, ?_⟩⟩
  rw [byteLength_append]

/-- A token does not end before it begins. -/
theorem start_le_stop (h : token.StandsIn cs) : token.span.start ≤ token.span.stop := by
  obtain ⟨before, after, -, hspan⟩ := h
  rw [hspan]
  exact Nat.le_add_right _ _

/-- A token ends inside the text. -/
theorem stop_le (h : token.StandsIn cs) : token.span.stop ≤ byteLength cs := by
  obtain ⟨before, after, rfl, hspan⟩ := h
  rw [hspan, byteLength_append, byteLength_append]
  exact Nat.le_add_right _ _

/-- The span cuts the token out of the text. -/
theorem slice_eq (h : token.StandsIn cs) :
    slice token.span.start token.span.stop cs = token.written := by
  obtain ⟨before, after, rfl, hspan⟩ := h
  rw [hspan]
  exact slice_append before token.written after

end StandsIn

end Token

/-- What a rule takes are the characters of its token. -/
theorem Rule.written_token {rule : Rule} (hrule : rule ∈ table) {taken rest : List Char}
    (ht : rule.Takes taken rest) (position : Nat) :
    (rule.token position taken).written = taken := by
  have hkind : (rule.token position taken).kind = .text ↔ rule.pattern = .quoted :=
    (pattern_iff_kind hrule).1.symm
  have hvalue : (rule.token position taken).value.toList = rule.pattern.value taken := by
    rw [token, String.toList_ofList]
  rw [Token.written, hvalue]
  by_cases hp : rule.pattern = .quoted
  · obtain ⟨inside, rfl, -⟩ := ht.quoted hp
    rw [if_pos (hkind.mpr hp), hp, Pattern.value, List.drop_one, List.tail_cons,
      List.dropLast_concat]
  · rw [if_neg (fun htext => hp (hkind.mp htext))]
    cases hpattern : rule.pattern with
    | quoted => exact absurd hpattern hp
    | shapes alternatives => rfl
    | digitRun => rfl

/-- An invalid token is written as the characters up to the first blank. -/
theorem Sequential.written_invalidToken (position : Nat) (cs : List Char) :
    (invalidToken position cs).written = cs.takeWhile isSolid := by
  have hkind : (invalidToken position cs).kind ≠ .text := by
    intro h
    contradiction
  rw [Token.written, if_neg hkind, invalidToken, String.toList_ofList]

/-- A token from a rule stands where its span says. -/
theorem Token.FromRule.standsIn {token : Token} {cs : List Char} (h : token.FromRule cs) :
    token.StandsIn cs := by
  obtain ⟨rule, hrule, before, taken, rest, rfl, ht, rfl⟩ := h
  rw [Token.StandsIn, Rule.written_token hrule ht]
  exact ⟨before, rest, by rw [List.append_assoc], rfl⟩

/-- An invalid token stands where its span says. -/
theorem Token.FromGap.standsIn {token : Token} {cs : List Char} (h : token.FromGap cs) :
    token.StandsIn cs := by
  obtain ⟨before, rest, rfl, -, rfl⟩ := h
  rw [Token.StandsIn, Sequential.written_invalidToken]
  refine ⟨before, rest.dropWhile Sequential.isSolid, ?_, rfl⟩
  rw [List.append_assoc, List.takeWhile_append_dropWhile]

/-- Every token but the end of the query stands in the text where its span says. -/
theorem Strategy.standsIn_of_mem_body {strategy : Strategy} {cs : List Char} {token : Token}
    (h : token ∈ strategy.body cs) : token.StandsIn cs := by
  rcases origin_of_mem_body h with hrule | hgap
  · exact hrule.standsIn
  · exact hgap.standsIn

end ErrorQuery
