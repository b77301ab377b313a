import ErrorQuery.Json.Mismatch
import ErrorQuery.Text.Bytes

/-!
# Reading JSON text from left to right

The pieces of a JSON text that stand on their own: blanks, strings, numbers, keywords and
colons.  Each reader takes what it wants from the front of a text and returns the text behind
it.  It stops at the first fault: the text ends where more is needed, it breaks the rules of
JSON, or it is JSON but not what was asked for.
-/

set_option autoImplicit false

namespace ErrorQuery.Json

open Text

/-- Why a text cannot be read. -/
inductive Fault where
  /-- The text ends too early. -/
  | unfinished
  /-- The text breaks the rules of JSON, or of the value that is read. -/
  | malformed
  /-- A value is not what was asked for. -/
  | mismatch (m : Mismatch)

/-- The wording of a fault. -/
def Fault.message : Fault → String
  | .unfinished => "unexpected end of text"
  | .malformed => "malformed text"
  | .mismatch m => m.message

/-- Whether a character may stand between the parts of a JSON text. -/
def isGap (c : Char) : Bool :=
  c == ' ' || c == '\n' || c == '\t' || c == '\r'

/-- The text from its next part on. -/
def skipGaps (cs : List Char) : List Char :=
  cs.dropWhile isGap

/-! ## Strings -/

/-- The value of a hexadecimal digit. -/
def hexValue? (c : Char) : Option Nat :=
  if isAsciiDigit c then some (digitValue c)
  else if 'a' ≤ c ∧ c ≤ 'f' then some (c.toNat - 87)
  else if 'A' ≤ c ∧ c ≤ 'F' then some (c.toNat - 55)
  else none

/-- The number that four hexadecimal digits at the front of a text denote. -/
def fourHex? : List Char → Option (Nat × List Char)
  | a :: b :: c :: d :: cs => do
      let a ← hexValue? a
      let b ← hexValue? b
      let c ← hexValue? c
      let d ← hexValue? d
      return (((a * 16 + b) * 16 + c) * 16 + d, cs)
  | _ => none

/-- The code unit behind `\u`, and the text behind it. -/
def codeUnit (cs : List Char) : Except Fault (Nat × List Char) :=
  match fourHex? cs with
  | some r => .ok r
  | none => if byteLength cs < 4 then .error .unfinished else .error .malformed

/-- The second half of a pair of code units, which has to follow the first at once. -/
def secondUnit (high : Nat) : List Char → Except Fault (Char × List Char)
  | [] => .error .unfinished
  | ['\\'] => .error .unfinished
  | '\\' :: 'u' :: cs => do
      let (low, rest) ← codeUnit cs
      if 0xDC00 ≤ low ∧ low ≤ 0xDFFF then
        .ok (Char.ofNat ((high - 0xD800) * 0x400 + (low - 0xDC00) + 0x10000), rest)
      else .error .malformed
  | _ => .error .malformed

/-- The character that a backslash and one letter or mark denote. -/
def shortEscape? : Char → Option Char
  | '"' => some '"'
  | '\\' => some '\\'
  | '/' => some '/'
  | 'b' => some '\x08'
  | 'f' => some '\x0c'
  | 'n' => some '\n'
  | 'r' => some '\r'
  | 't' => some '\t'
  | _ => none

/-- The character that an escape denotes, whose backslash has been read. -/
def escaped : List Char → Except Fault (Char × List Char)
  | [] => .error .unfinished
  | 'u' :: cs => do
      let (unit, rest) ← codeUnit cs
      if 0xDC00 ≤ unit ∧ unit ≤ 0xDFFF then .error .malformed
      else if 0xD800 ≤ unit ∧ unit ≤ 0xDBFF then secondUnit unit rest
      else .ok (Char.ofNat unit, rest)
  | c :: cs =>
      match shortEscape? c with
      | some d => .ok (d, cs)
      | none => .error .malformed

/-- Four hexadecimal digits take four characters. -/
theorem fourHex?_length {cs rest : List Char} {n : Nat} (h : fourHex? cs = some (n, rest)) :
    rest.length + 4 = cs.length := by
  unfold fourHex? at h
  split at h
  · simp only [Option.bind_eq_bind, Option.bind_eq_some_iff, Option.pure_def,
      Option.some.injEq, Prod.mk.injEq] at h
    obtain ⟨_, _, _, _, _, _, _, _, _, rfl⟩ := h
    simp
  · simp at h

/-- A code unit takes four characters. -/
theorem codeUnit_length {cs rest : List Char} {n : Nat} (h : codeUnit cs = .ok (n, rest)) :
    rest.length + 4 = cs.length := by
  unfold codeUnit at h
  split at h
  · next r hr =>
      injection h with h
      subst h
      exact fourHex?_length hr
  · split at h <;> cases h

/-- The second half of a pair leaves less than there was. -/
theorem secondUnit_length {high : Nat} {cs rest : List Char} {c : Char}
    (h : secondUnit high cs = .ok (c, rest)) : rest.length < cs.length := by
  unfold secondUnit at h
  split at h
  · cases h
  · cases h
  · next cs =>
      simp only [bind, Except.bind] at h
      split at h
      · cases h
      · next r hr =>
          have hlen := codeUnit_length hr
          split at h
          · simp only [Except.ok.injEq, Prod.mk.injEq] at h
            obtain ⟨_, rfl⟩ := h
            simp only [List.length_cons]
            omega
          · cases h
  · cases h

/-- An escape leaves less than there was. -/
theorem escaped_length {cs rest : List Char} {c : Char} (h : escaped cs = .ok (c, rest)) :
    rest.length < cs.length := by
  unfold escaped at h
  split at h
  · cases h
  · next cs =>
      simp only [bind, Except.bind] at h
      split at h
      · cases h
      · next r hr =>
          have hlen := codeUnit_length hr
          split at h
          · cases h
          · split at h
            · have hrest := secondUnit_length h
              simp only [List.length_cons]
              omega
            · simp only [Except.ok.injEq, Prod.mk.injEq] at h
              obtain ⟨_, rfl⟩ := h
              simp only [List.length_cons]
              omega
  · split at h
    · cases h
      simp
    · cases h

/-- The characters of a string whose opening quote has been read, and the text behind its
closing quote. -/
def stringBody (cs : List Char) : Except Fault (List Char × List Char) :=
  match cs with
  | [] => .error .unfinished
  | '"' :: cs => .ok ([], cs)
  | '\\' :: cs =>
      match h : escaped cs with
      | .error e => .error e
      | .ok (c, rest) =>
          have := escaped_length h
          match stringBody rest with
          | .error e => .error e
          | .ok (body, rest) => .ok (c :: body, rest)
  | c :: cs =>
      if c.toNat < 0x20 then .error .malformed
      else
        match stringBody cs with
        | .error e => .error e
        | .ok (body, rest) => .ok (c :: body, rest)
termination_by cs.length

/-- A string whose opening quote has been read. -/
def readString (cs : List Char) : Except Fault (String × List Char) :=
  (stringBody cs).map fun (body, rest) => (String.ofList body, rest)

/-! ## Keywords and marks -/

/-- Reads the given characters. -/
def expect : List Char → List Char → Except Fault (List Char)
  | [], cs => .ok cs
  | _ :: _, [] => .error .unfinished
  | k :: ks, c :: cs => if c = k then expect ks cs else .error .malformed

/-- Reads a mark of one character, gaps before it. -/
def mark (m : Char) (cs : List Char) : Except Fault (List Char) :=
  expect [m] (skipGaps cs)

/-! ## Numbers -/

/-- The digits of a fraction or an exponent, at least one, and the text behind them. -/
def someDigits (cs : List Char) : Except Fault (List Char × List Char) :=
  let digits := cs.takeWhile isAsciiDigit
  if cs.isEmpty then .error .unfinished
  else if digits.isEmpty then .error .malformed
  else .ok (digits, cs.dropWhile isAsciiDigit)

/-- The digits before the point, and the text behind them; only zero itself begins with a
zero. -/
def wholeDigits (cs : List Char) : Except Fault (List Char × List Char) := do
  let (digits, rest) ← someDigits cs
  if digits.head? = some '0' ∧ digits.length ≠ 1 then .error .malformed
  else .ok (digits, rest)

/-- The digits behind the point, if there is one, and the text behind them. -/
def fractionDigits : List Char → Except Fault (Option (List Char) × List Char)
  | '.' :: cs => do
      let (digits, rest) ← someDigits cs
      .ok (some digits, rest)
  | cs => .ok (none, cs)

/-- The exponent behind its mark. -/
def exponentValue (cs : List Char) : Except Fault (Int × List Char) :=
  match cs with
  | '+' :: cs => do
      let (digits, rest) ← someDigits cs
      .ok (digitsValue digits, rest)
  | '-' :: cs => do
      let (digits, rest) ← someDigits cs
      .ok (-(digitsValue digits : Int), rest)
  | cs => do
      let (digits, rest) ← someDigits cs
      .ok (digitsValue digits, rest)

/-- The exponent, if there is one, and the text behind it. -/
def exponent? : List Char → Except Fault (Option Int × List Char)
  | 'e' :: cs | 'E' :: cs => do
      let (n, rest) ← exponentValue cs
      .ok (some n, rest)
  | cs => .ok (none, cs)

/-- A number whose sign has been read. -/
def readNumber (negative : Bool) (cs : List Char) : Except Fault (Number × List Char) := do
  let (whole, rest) ← wholeDigits cs
  let (fraction, rest) ← fractionDigits rest
  let (exponent, rest) ← exponent? rest
  match Written.number? ⟨negative, whole, fraction, exponent⟩ with
  | some n => .ok (n, rest)
  | none => .error .malformed

/-! ## What stands in a place -/

/-- What the value at the front of a text is.  A scalar is read to its end, of a list or an
object only the first character is looked at. -/
def found : List Char → Except Fault Found
  | [] => .error .unfinished
  | 'n' :: cs => (expect "ull".toList cs).map fun _ => .null
  | 't' :: cs => (expect "rue".toList cs).map fun _ => .bool true
  | 'f' :: cs => (expect "alse".toList cs).map fun _ => .bool false
  | '-' :: cs => (readNumber true cs).map fun (n, _) => .number n
  | '"' :: cs => (readString cs).map fun (s, _) => .string s
  | '[' :: _ => .ok .sequence
  | '\x7b' :: _ => .ok .map
  | c :: cs =>
      if isAsciiDigit c then (readNumber false (c :: cs)).map fun (n, _) => .number n
      else .error .malformed

/-- The fault of a text that does not hold what was wanted. -/
def unwanted {α : Type} (wanted : String) (cs : List Char) : Except Fault α :=
  match found cs with
  | .ok f => .error (.mismatch (.type f wanted))
  | .error e => .error e

end ErrorQuery.Json
