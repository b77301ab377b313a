import ErrorQuery.Json.Literal
import ErrorQuery.Proofs.Fallible
import ErrorQuery.Proofs.Text.LetterCase
import Mathlib.Tactic.IntervalCases

/-!
# The pieces of a JSON text

What may stand at the front of a text is given by relations between a text, what its front denotes
and the text behind it.  Here they are those of gaps (`Gaps`), of four hexadecimal digits
(`FourHex`), of one character of a string, written as itself or escaped (`CharAt`), and of a string
up to its closing quote (`StringTail`).  Each reader takes exactly what its relation says: it gives
a result just if the front of the text is of that form, and the result is what it denotes
(`stringBody_eq_ok_iff`, `mark_eq_ok_iff`).
-/

set_option autoImplicit false

namespace ErrorQuery.Json

open Text

/-! ### Gaps -/

/-- Between the text and the rest of it there are gaps only. -/
inductive Gaps : List Char → List Char → Prop where
  | nil {cs : List Char} : Gaps cs cs
  | cons {c : Char} {cs rest : List Char} : c ∈ [' ', '\n', '\t', '\r'] → Gaps cs rest →
      Gaps (c :: cs) rest

/-- The gaps are four characters. -/
theorem isGap_iff {c : Char} : isGap c = true ↔ c ∈ [' ', '\n', '\t', '\r'] := by
  simp [isGap, or_assoc]

/-- What is skipped is gaps. -/
theorem gaps_skipGaps (cs : List Char) : Gaps cs (skipGaps cs) := by
  induction cs with
  | nil => exact .nil
  | cons c cs ih =>
      rw [skipGaps, List.dropWhile_cons]
      split
      · rename_i hc
        exact .cons (isGap_iff.mp hc) ih
      · exact .nil

/-- Skipping gaps leads to the same place from behind some of them. -/
theorem skipGaps_of_gaps {cs rest : List Char} (h : Gaps cs rest) :
    skipGaps cs = skipGaps rest := by
  induction h with
  | nil => rfl
  | cons hc _ ih =>
      rw [skipGaps, List.dropWhile_cons_of_pos (isGap_iff.mpr hc)]
      exact ih

/-- Gaps end at the first character that is none. -/
theorem skipGaps_eq_cons_iff {cs rest : List Char} {c : Char} (hc : isGap c = false) :
    skipGaps cs = c :: rest ↔ Gaps cs (c :: rest) := by
  constructor
  · intro h
    rw [← h]
    exact gaps_skipGaps cs
  · intro h
    rw [skipGaps_of_gaps h, skipGaps, List.dropWhile_cons_of_neg (by simp [hc])]

/-- Skipping gaps leads to the end if there is nothing else. -/
theorem skipGaps_eq_nil_iff {cs : List Char} : skipGaps cs = [] ↔ Gaps cs [] := by
  constructor
  · intro h
    rw [← h]
    exact gaps_skipGaps cs
  · intro h
    rw [skipGaps_of_gaps h]
    rfl

/-! ### Keywords and marks -/

/-- What is expected is taken off the front. -/
theorem expect_eq_ok_iff {ks cs rest : List Char} : expect ks cs = .ok rest ↔ cs = ks ++ rest := by
  induction ks generalizing cs with
  | nil => simp [expect]
  | cons k ks ih =>
      cases cs with
      | nil => simp [expect]
      | cons c cs =>
          rw [expect]
          split
          · rename_i hc
            simp [ih, hc]
          · rename_i hc
            simp [hc]

/-- A mark is taken off the front with the gaps before it. -/
theorem mark_eq_ok_iff {m : Char} (hm : isGap m = false) {cs rest : List Char} :
    mark m cs = .ok rest ↔ Gaps cs (m :: rest) := by
  rw [mark, expect_eq_ok_iff, List.singleton_append, skipGaps_eq_cons_iff hm]

/-! ### Escapes -/

/-- The hexadecimal digits in order. -/
def hexDigits : List Char :=
  "0123456789abcdef".toList

/-- The character is the digit of the given value, in either case. -/
def IsHexDigit (c : Char) (value : Nat) : Prop :=
  hexDigits[value]? = some c.toLower

/-- The hexadecimal digits by their code points. -/
theorem isHexDigit_iff {c : Char} {value : Nat} :
    IsHexDigit c value ↔ (48 ≤ c.toNat ∧ c.toNat ≤ 57 ∧ value + 48 = c.toNat) ∨
      (97 ≤ c.toNat ∧ c.toNat ≤ 102 ∧ value + 87 = c.toNat) ∨
      (65 ≤ c.toNat ∧ c.toNat ≤ 70 ∧ value + 55 = c.toNat) := by
  constructor
  · intro h
    have hlt : value < 16 := (List.getElem?_eq_some_iff.mp h).1
    have hlower : c.toLower.toNat = value + (if value < 10 then 48 else 87) := by
      rw [IsHexDigit] at h
      interval_cases value
      all_goals
        rw [← Option.some.inj h]
        rfl
    rcases toLower_cases c with hsame | ⟨hlow, hhigh, hshift⟩
    · rw [hsame] at hlower
      split at hlower <;> omega
    · split at hlower <;> omega
  · intro h
    have htable : ∀ n < 103, ∀ value < 16, (48 ≤ n ∧ n ≤ 57 ∧ value + 48 = n) ∨
        (97 ≤ n ∧ n ≤ 102 ∧ value + 87 = n) ∨ (65 ≤ n ∧ n ≤ 70 ∧ value + 55 = n) →
          hexDigits[value]? = some (Char.ofNat n).toLower := by
      decide +kernel
    rw [IsHexDigit, ← Char.ofNat_toNat c]
    exact htable c.toNat (by omega) value (by omega) h

/-- The value of a character is that of the hexadecimal digit. -/
theorem hexValue?_eq_some_iff {c : Char} {value : Nat} :
    hexValue? c = some value ↔ IsHexDigit c value := by
  have hsmall : 'a' ≤ c ∧ c ≤ 'f' ↔ 97 ≤ c.toNat ∧ c.toNat ≤ 102 := Iff.rfl
  have hcapital : 'A' ≤ c ∧ c ≤ 'F' ↔ 65 ≤ c.toNat ∧ c.toNat ≤ 70 := Iff.rfl
  have hdigit : isAsciiDigit c = true ↔ 48 ≤ c.toNat ∧ c.toNat ≤ 57 := by
    simp [isAsciiDigit]
  have hvalue : digitValue c = c.toNat - 48 := rfl
  rw [isHexDigit_iff, hexValue?, hvalue]
  simp only [hdigit, hsmall, hcapital]
  split
  · rw [Option.some.injEq]
    omega
  · split
    · rw [Option.some.injEq]
      omega
    · split
      · rw [Option.some.injEq]
        omega
      · simp only [reduceCtorEq, false_iff]
        omega

/-- Four hexadecimal digits at the front of a text, with the number that they denote. -/
inductive FourHex : List Char → Nat → List Char → Prop where
  | mk {a b c d : Char} {i j k l : Nat} {rest : List Char} :
      IsHexDigit a i → IsHexDigit b j → IsHexDigit c k → IsHexDigit d l →
      FourHex (a :: b :: c :: d :: rest) (i * 16 ^ 3 + j * 16 ^ 2 + k * 16 + l) rest

/-- Four hexadecimal digits are read exactly where they are written. -/
theorem fourHex?_eq_some_iff {cs rest : List Char} {n : Nat} :
    fourHex? cs = some (n, rest) ↔ FourHex cs n rest := by
  constructor
  · intro h
    unfold fourHex? at h
    split at h
    · simp only [Option.bind_eq_bind, Option.bind_eq_some_iff, Option.pure_def, Option.some.injEq,
        Prod.mk.injEq, hexValue?_eq_some_iff] at h
      obtain ⟨i, hi, j, hj, k, hk, l, hl, rfl, rfl⟩ := h
      have hvalue : ((i * 16 + j) * 16 + k) * 16 + l = i * 16 ^ 3 + j * 16 ^ 2 + k * 16 + l := by
        omega
      rw [hvalue]
      exact .mk hi hj hk hl
    · contradiction
  · rintro ⟨hi, hj, hk, hl⟩
    rw [← hexValue?_eq_some_iff] at hi hj hk hl
    simp only [fourHex?, hi, hj, hk, hl, Option.bind_eq_bind, Option.bind_some, Option.pure_def,
      Option.some.injEq, Prod.mk.injEq, and_true]
    omega

/-- What a backslash and one letter or mark denote. -/
def shortEscapes : List (Char × Char) :=
  [('"', '"'), ('\\', '\\'), ('/', '/'), ('b', '\x08'), ('f', '\x0c'), ('n', '\n'), ('r', '\r'),
    ('t', '\t')]

/-- A short escape stands for the character that is listed for it. -/
theorem shortEscape?_eq_some_iff {e c : Char} :
    shortEscape? e = some c ↔ (e, c) ∈ shortEscapes := by
  unfold shortEscape?
  split
  all_goals simp_all [shortEscapes, eq_comm]

/-- The character beyond the first plane that a pair of surrogates denotes. -/
def ofSurrogates (high low : Nat) : Char :=
  Char.ofNat ((high - 0xD800) * 0x400 + (low - 0xDC00) + 0x10000)

/-- A character of a string at the front of a text: the character itself, unless it is a control
character, a quote or a backslash; a short escape; the number of a code unit; or those of a pair of
surrogates. -/
inductive CharAt : List Char → Char → List Char → Prop where
  | plain {c : Char} {rest : List Char} :
      0x20 ≤ c.toNat → c ≠ '"' → c ≠ '\\' → CharAt (c :: rest) c rest
  | short {e c : Char} {rest : List Char} :
      (e, c) ∈ shortEscapes → CharAt ('\\' :: e :: rest) c rest
  | unit {cs rest : List Char} {n : Nat} :
      FourHex cs n rest → n < 0xD800 ∨ 0xDFFF < n → CharAt ('\\' :: 'u' :: cs) (Char.ofNat n) rest
  | pair {cs ds rest : List Char} {high low : Nat} :
      FourHex cs high ('\\' :: 'u' :: ds) → FourHex ds low rest →
      0xD800 ≤ high ∧ high ≤ 0xDBFF → 0xDC00 ≤ low ∧ low ≤ 0xDFFF →
      CharAt ('\\' :: 'u' :: cs) (ofSurrogates high low) rest

/-- A code unit is read exactly where four hexadecimal digits are written. -/
theorem codeUnit_eq_ok_iff {cs rest : List Char} {n : Nat} :
    codeUnit cs = .ok (n, rest) ↔ FourHex cs n rest := by
  rw [← fourHex?_eq_some_iff, codeUnit]
  cases fourHex? cs with
  | some r => simp
  | none =>
      simp only [reduceCtorEq, iff_false]
      split <;> simp

/-- The second half of a pair is read exactly where an escape for one is written. -/
theorem secondUnit_eq_ok_iff {high : Nat} {cs rest : List Char} {c : Char} :
    secondUnit high cs = .ok (c, rest) ↔
      ∃ ds low, cs = '\\' :: 'u' :: ds ∧ FourHex ds low rest ∧ (0xDC00 ≤ low ∧ low ≤ 0xDFFF) ∧
        c = ofSurrogates high low := by
  unfold secondUnit
  split
  · simp
  · simp
  · rename_i ds
    simp only [bind_eq_ok_iff, Prod.exists, codeUnit_eq_ok_iff]
    constructor
    · rintro ⟨low, behind, hunit, h⟩
      split at h
      · rename_i hlow
        rw [← ofSurrogates, Except.ok.injEq, Prod.mk.injEq] at h
        obtain ⟨rfl, rfl⟩ := h
        exact ⟨ds, low, rfl, hunit, hlow, rfl⟩
      · contradiction
    · rintro ⟨ds', low, heq, hunit, hlow, hc⟩
      obtain rfl : ds = ds' := by simpa using heq
      refine ⟨low, rest, hunit, ?_⟩
      rw [if_pos hlow, hc, ofSurrogates]
  · rename_i hne
    simp only [reduceCtorEq, false_iff]
    rintro ⟨ds, low, rfl, -⟩
    exact hne ds rfl

/-- An escape is read exactly if the backslash and what follows denote a character. -/
theorem escaped_eq_ok_iff {cs rest : List Char} {c : Char} :
    escaped cs = .ok (c, rest) ↔ CharAt ('\\' :: cs) c rest := by
  constructor
  · intro h
    unfold escaped at h
    split at h
    · contradiction
    · -- a code unit, which may be the first of a pair
      rename_i cs
      obtain ⟨⟨n, behind⟩, hunit, h⟩ := bind_eq_ok_iff.mp h
      rw [codeUnit_eq_ok_iff] at hunit
      simp only at h
      split at h
      · contradiction
      · split at h
        · rename_i hhigh
          obtain ⟨ds, low, rfl, hlow, hrange, hc⟩ := secondUnit_eq_ok_iff.mp h
          rw [hc]
          exact .pair hunit hlow hhigh hrange
        · cases h
          exact .unit hunit (by omega)
    · -- any other character is a short escape
      rename_i e cs _
      split at h
      · rename_i d hshort
        cases h
        exact .short (shortEscape?_eq_some_iff.mp hshort)
      · contradiction
  · generalize htext : '\\' :: cs = text
    intro h
    cases h with
    | plain _ _ hbackslash => exact absurd (List.cons.inj htext).1.symm hbackslash
    | @short e c rest hshort =>
        obtain rfl := (List.cons.inj htext).2
        have hletter : e ≠ 'u' := by
          rintro rfl
          exact absurd hshort (by simp [shortEscapes])
        rw [← shortEscape?_eq_some_iff] at hshort
        unfold escaped
        split
        · contradiction
        · rename_i heq
          exact absurd (List.cons.inj heq).1 hletter
        · rename_i heq
          obtain ⟨rfl, rfl⟩ := List.cons.inj heq
          rw [hshort]
    | unit hunit hn =>
        obtain rfl := (List.cons.inj htext).2
        refine bind_eq_ok_iff.mpr ⟨_, codeUnit_eq_ok_iff.mpr hunit, ?_⟩
        simp only
        rw [if_neg (by omega), if_neg (by omega)]
    | pair hhigh hlow hn hm =>
        obtain rfl := (List.cons.inj htext).2
        refine bind_eq_ok_iff.mpr ⟨_, codeUnit_eq_ok_iff.mpr hhigh, ?_⟩
        simp only
        rw [if_neg (by omega), if_pos hn]
        exact secondUnit_eq_ok_iff.mpr ⟨_, _, rfl, hlow, hm, rfl⟩

/-! ### Strings -/

/-- The characters of a string up to its closing quote, and the text behind that. -/
inductive StringTail : List Char → List Char → List Char → Prop where
  | close {rest : List Char} : StringTail ('"' :: rest) [] rest
  | char {cs ds body rest : List Char} {c : Char} :
      CharAt cs c ds → StringTail ds body rest → StringTail cs (c :: body) rest

/-- A text without control characters, quotes and backslashes may be written as it is. -/
theorem StringTail.of_plain {body : List Char}
    (h : body.all fun c => 0x20 ≤ c.toNat ∧ c ≠ '"' ∧ c ≠ '\\') (rest : List Char) :
    StringTail (body ++ '"' :: rest) body rest := by
  induction body with
  | nil => exact .close
  | cons c body ih =>
      rw [List.all_cons, Bool.and_eq_true, decide_eq_true_eq] at h
      obtain ⟨⟨hcontrol, hquote, hbackslash⟩, hbody⟩ := h
      exact .char (.plain hcontrol hquote hbackslash) (ih hbody)

/-- A character that needs no escape stands for itself. -/
theorem stringBody_of_plain {c : Char} {cs body rest : List Char} (hplain : 0x20 ≤ c.toNat)
    (hquote : c ≠ '"') (hbackslash : c ≠ '\\') (h : stringBody cs = .ok (body, rest)) :
    stringBody (c :: cs) = .ok (c :: body, rest) := by
  rw [stringBody, if_neg (by omega), h]
  · exact hquote
  · exact hbackslash

/-- An escape stands for its character. -/
theorem stringBody_of_escaped {c : Char} {cs ds body rest : List Char}
    (hescaped : escaped cs = .ok (c, ds)) (h : stringBody ds = .ok (body, rest)) :
    stringBody ('\\' :: cs) = .ok (c :: body, rest) := by
  rw [stringBody]
  split
  · rename_i e he
    rw [hescaped] at he
    contradiction
  · rename_i d behind hread
    rw [hescaped] at hread
    cases hread
    rw [h]

/-- The body of a string is read exactly if it is one, up to its first quote that is not escaped. -/
theorem stringBody_eq_ok_iff {cs body rest : List Char} :
    stringBody cs = .ok (body, rest) ↔ StringTail cs body rest := by
  constructor
  · intro h
    fun_induction stringBody cs generalizing body with
    | case1 => contradiction
    | case2 cs =>
        cases h
        exact .close
    | case3 cs e he => contradiction
    | case4 => contradiction
    | case5 cs c behind hescaped _ body behind' hbody ih =>
        cases h
        exact .char (escaped_eq_ok_iff.mp hescaped) (ih hbody)
    | case6 => contradiction
    | case7 => contradiction
    | case8 c cs hquote hbackslash hplain body behind hbody ih =>
        cases h
        exact .char (.plain (by omega) hquote hbackslash) (ih hbody)
  · intro h
    induction h with
    | close => rw [stringBody]
    | @char cs ds body rest c hchar _ ih =>
        cases cs with
        | nil => cases hchar
        | cons d cs =>
            by_cases hbackslash : d = '\\'
            · rw [hbackslash] at hchar ⊢
              exact stringBody_of_escaped (escaped_eq_ok_iff.mpr hchar) ih
            · cases hchar with
              | plain hplain hquote _ => exact stringBody_of_plain hplain hquote hbackslash ih
              | _ => contradiction

/-- A string is read exactly up to its closing quote. -/
theorem readString_eq_ok_iff {cs rest : List Char} {s : String} :
    readString cs = .ok (s, rest) ↔ StringTail cs s.toList rest := by
  rw [readString, map_eq_ok_iff, ← stringBody_eq_ok_iff]
  constructor
  · rintro ⟨⟨body, behind⟩, hbody, heq⟩
    obtain ⟨rfl, rfl⟩ := Prod.mk.inj heq
    rwa [String.toList_ofList]
  · intro h
    exact ⟨_, h, by simp⟩

end ErrorQuery.Json
