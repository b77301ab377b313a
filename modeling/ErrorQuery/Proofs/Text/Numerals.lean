import ErrorQuery.Query.Basic
import ErrorQuery.Text.Numeral
import Mathlib.Algebra.Group.Nat.Defs
import Mathlib.Data.List.Induction

/-!
# Numbers in decimal and what they denote

A numeral is a run of ASCII digits (`IsNumeral`).  Both ways of writing a number down give
numerals of it, and the limit that a numeral denotes is its number as long as it fits.
-/

set_option autoImplicit false

namespace ErrorQuery.Text

/-- ASCII digits that denote the given number. -/
structure IsNumeral (cs : List Char) (n : Nat) : Prop where
  ne_nil : cs ≠ []
  digits : ∀ c ∈ cs, isAsciiDigit c = true
  value : digitsValue cs = n

instance (cs : List Char) (n : Nat) : Decidable (IsNumeral cs n) :=
  decidable_of_iff (cs ≠ [] ∧ cs.all isAsciiDigit = true ∧ digitsValue cs = n)
    ⟨fun ⟨hne, hdigits, hvalue⟩ => ⟨hne, List.all_eq_true.mp hdigits, hvalue⟩,
      fun h => ⟨h.ne_nil, List.all_eq_true.mpr h.digits, h.value⟩⟩

/-- The digits of the library are the ASCII digits. -/
theorem isAsciiDigit_of_isDigit {c : Char} (h : c.isDigit = true) : isAsciiDigit c = true := by
  have hboth : (decide (c.val ≥ 48) && decide (c.val ≤ 57)) = true := h
  have hrange : 48 ≤ c.val ∧ c.val ≤ 57 := by simpa using hboth
  have hlow : 48 ≤ c.toNat := hrange.1
  have hhigh : c.toNat ≤ 57 := hrange.2
  simp [isAsciiDigit, hlow, hhigh]

/-- The value of digits is that which the library gives them. -/
theorem digitsValue_eq_ofDigitChars (cs : List Char) :
    digitsValue cs = Nat.ofDigitChars 10 cs 0 := by
  rw [Nat.ofDigitChars_eq_foldl]
  rfl

/-- The digits of a number denote it. -/
theorem isNumeral_toDigits (n : Nat) : IsNumeral (Nat.toDigits 10 n) n where
  ne_nil := Nat.toDigits_ne_nil
  digits := by
    intro c hc
    exact isAsciiDigit_of_isDigit (Nat.isDigit_of_mem_toDigits (by decide) (by decide) hc)
  value := by
    rw [digitsValue_eq_ofDigitChars, Nat.ofDigitChars_ten_toDigits]

/-- A number in decimal denotes itself. -/
theorem isNumeral_decimal (n : Nat) : IsNumeral (decimal n).toList n := by
  rw [decimal, String.toList_ofList]
  exact isNumeral_toDigits n

/-- A number in decimal tells the number. -/
theorem decimal_injective : Function.Injective decimal := by
  intro n m h
  rw [← (isNumeral_decimal n).value, h, (isNumeral_decimal m).value]

/-- A padded number is its digits behind zeros. -/
theorem toList_padded (width n : Nat) :
    (padded width n).toList =
      List.replicate (width - (Nat.toDigits 10 n).length) '0' ++ Nat.toDigits 10 n := by
  rw [padded, String.toList_ofList]
  rfl

/-- A padded number denotes itself. -/
theorem isNumeral_padded (width n : Nat) : IsNumeral (padded width n).toList n := by
  have hnumeral := isNumeral_toDigits n
  rw [toList_padded]
  refine ⟨?_, ?_, ?_⟩
  · simp [hnumeral.ne_nil]
  · intro c hc
    rcases List.mem_append.mp hc with hzero | hdigit
    · rw [List.eq_of_mem_replicate hzero]
      decide
    · exact hnumeral.digits c hdigit
  · rw [digitsValue_eq_ofDigitChars, Nat.ofDigitChars_append, Nat.ofDigitChars_replicate_zero,
      Nat.mul_zero, Nat.ofDigitChars_ten_toDigits]

/-- A number that does not need more digits is written with exactly as many as asked for. -/
theorem length_padded {width n : Nat} (hwidth : 0 < width) (h : n < 10 ^ width) :
    (padded width n).toList.length = width := by
  have hle := (Nat.length_toDigits_le_iff (by decide) hwidth).mpr h
  rw [toList_padded, List.length_append, List.length_replicate]
  omega

/-- As many digits as there are bound the number. -/
theorem digitsValue_lt {cs : List Char} (h : ∀ c ∈ cs, isAsciiDigit c = true) :
    digitsValue cs < 10 ^ cs.length := by
  induction cs with
  | nil => decide
  | cons c cs ih =>
      have hrest := ih fun d hd => h d (List.mem_cons_of_mem c hd)
      have hc := h c (by simp)
      simp only [isAsciiDigit, Bool.and_eq_true, decide_eq_true_eq] at hc
      rw [digitsValue_eq_ofDigitChars] at hrest ⊢
      rw [Nat.ofDigitChars_cons, Nat.ofDigitChars_eq_ofDigitChars_zero, List.length_cons,
        Nat.pow_succ]
      have hdigit : 10 * 0 + (c.toNat - '0'.toNat) ≤ 9 := by
        have hzero : '0'.toNat = 48 := by decide
        omega
      have hmul := Nat.mul_le_mul_left (10 ^ cs.length) hdigit
      omega

/-- A further digit counts once, and all before it ten times as much. -/
theorem digitsValue_concat (cs : List Char) (c : Char) :
    digitsValue (cs ++ [c]) = 10 * digitsValue cs + digitValue c := by
  simp [digitsValue]

/-- Digits are determined by their number and by how many they are. -/
theorem digitsValue_inj {cs ds : List Char} (hcs : ∀ c ∈ cs, isAsciiDigit c = true)
    (hds : ∀ c ∈ ds, isAsciiDigit c = true) (hlen : cs.length = ds.length)
    (h : digitsValue cs = digitsValue ds) : cs = ds := by
  induction cs using List.reverseRecOn generalizing ds with
  | nil => exact (List.length_eq_zero_iff.mp hlen.symm).symm
  | append_singleton cs c ih =>
      obtain rfl | ⟨ds, d, rfl⟩ := List.eq_nil_or_concat ds
      · simp at hlen
      · rw [List.concat_eq_append] at hds hlen h ⊢
        have hc := hcs c (by simp)
        have hd := hds d (by simp)
        simp only [isAsciiDigit, Bool.and_eq_true, decide_eq_true_eq] at hc hd
        rw [digitsValue_concat, digitsValue_concat, digitValue, digitValue] at h
        have hlast : c = d := Char.toNat_inj.mp (by omega)
        have hfront : cs = ds := by
          refine ih (fun e he => hcs e (List.mem_append_left _ he))
            (fun e he => hds e (List.mem_append_left _ he)) (by simpa using hlen) (by omega)
        rw [hlast, hfront]

/-- A number with leading zeros up to the length of a numeral of it is that numeral. -/
theorem padded_of_isNumeral {ds : List Char} {n : Nat} (h : IsNumeral ds n) :
    (padded ds.length n).toList = ds := by
  have hnumeral := isNumeral_padded ds.length n
  have hlt : n < 10 ^ ds.length := h.value ▸ digitsValue_lt h.digits
  have hlen := length_padded (List.length_pos_iff.mpr h.ne_nil) hlt
  exact digitsValue_inj hnumeral.digits h.digits hlen (hnumeral.value.trans h.value.symm)

/-- The limit that a numeral denotes. -/
theorem read?_of_isNumeral {s : String} {n : UInt32} (h : IsNumeral s.toList n.toNat) :
    Limit.read? s = some n := by
  have hdigits : Limit.ofDigits? s.toList = some n := by
    have hall : s.toList.all isAsciiDigit = true := List.all_eq_true.mpr h.digits
    simp [Limit.ofDigits?, hall, h.ne_nil, h.value, n.toNat_lt]
  unfold Limit.read?
  split
  · rename_i cs hplus
    have hdigit := h.digits '+' (by simp [hplus])
    exact absurd hdigit (by decide)
  · exact hdigits

end ErrorQuery.Text
