import ErrorQuery.DateTime.Basic
import ErrorQuery.Proofs.DateTime.Literal

/-!
# Moments as they are stored

Every moment has a written form (`DateTime.print`), and reading it gives the moment back
(`parse_print`).  Two of its parts vary in length: a year outside 0 to 9999 has a sign and as many
digits as it needs, and a fraction has none, three, six or nine digits.  Both are read up to the
first character that is no digit, so the mark behind the year and the end of the text close them.
-/

set_option autoImplicit false

namespace ErrorQuery.DateTime

open Text

/-! ### Digits up to the next mark -/

/-- The run of digits at the front goes up to the first other character. -/
theorem takeWhile_digits {ds rest : List Char} (hdigits : ∀ c ∈ ds, isAsciiDigit c = true)
    (hrest : rest.head?.any isAsciiDigit = false) :
    (ds ++ rest).takeWhile isAsciiDigit = ds := by
  rw [List.takeWhile_append_of_pos hdigits]
  cases rest with
  | nil => simp
  | cons c rest =>
      have hc : isAsciiDigit c = false := hrest
      simp [hc]

/-- A number is read to its last digit if as many digits may be read as it has. -/
theorem readDigits_all {most : Option Nat} {ds rest : List Char} (hne : ds ≠ [])
    (hdigits : ∀ c ∈ ds, isAsciiDigit c = true) (hrest : rest.head?.any isAsciiDigit = false)
    (hmost : ∀ n ∈ most, ds.length ≤ n) : readDigits most (ds ++ rest) = .ok (ds, rest) := by
  unfold readDigits
  rw [takeWhile_digits hdigits hrest]
  cases most with
  | none => simp [hne]
  | some n =>
      have htake : ds.take n = ds := List.take_of_length_le (hmost n rfl)
      simp [htake, hne]

/-! ### Years -/

/-- A year with a sign has as many digits as follow it. -/
theorem readYear_signed {ds rest : List Char} {n : Nat} (h : IsNumeral ds n) (hn : n ≤ 2147483647)
    (hrest : rest.head?.any isAsciiDigit = false) :
    readYear ('-' :: (ds ++ rest)) = .ok (-(n : Int), rest) ∧
      readYear ('+' :: (ds ++ rest)) = .ok ((n : Int), rest) := by
  have hread : readDigits none (ds ++ rest) = .ok (ds, rest) :=
    readDigits_all h.ne_nil h.digits hrest (by simp)
  constructor
  all_goals
    unfold readYear
    rw [trimFront_of_solid (by decide)]
    simp only [hread]
    show (if _ then _ else _) = _
    rw [h.value, if_pos (by omega)]

/-- A written year is read back if no digit follows. -/
theorem readYear_yearText {year : Int}
    (hyear : Calendar.firstYear ≤ year ∧ year ≤ Calendar.lastYear) {rest : List Char}
    (hrest : rest.head?.any isAsciiDigit = false) :
    readYear ((yearText year).toList ++ rest) = .ok (year, rest) := by
  have hnumeral := isNumeral_padded 4 year.natAbs
  rw [Calendar.firstYear, Calendar.lastYear] at hyear
  unfold yearText
  split
  · rename_i hshort
    have hvalue : (year.natAbs : Int) = year := Int.natAbs_of_nonneg hshort.1
    rw [readYear_append hnumeral (length_padded (by decide) (by omega)) (by omega), hvalue]
  · rename_i hlong
    split
    · rename_i hnegative
      have hvalue : -(year.natAbs : Int) = year := by omega
      have hsign : "-".toList = ['-'] := by decide
      rw [String.toList_append, hsign, List.append_assoc, List.singleton_append,
        (readYear_signed hnumeral (by omega) hrest).1, hvalue]
    · rename_i hpositive
      have hvalue : (year.natAbs : Int) = year := by omega
      have hsign : "+".toList = ['+'] := by decide
      rw [String.toList_append, hsign, List.append_assoc, List.singleton_append,
        (readYear_signed hnumeral (by omega) hrest).2, hvalue]

/-! ### Fractions of a second -/

/-- A fraction is read from as many digits as it is written with. -/
theorem readFraction_padded {width n : Nat} (hwidth : 0 < width) (hle : width ≤ 9)
    (hn : n < 10 ^ width) :
    readFraction ('.' :: (padded width n).toList) = .ok (n * Nat.pow 10 (9 - width), []) := by
  have hnumeral := isNumeral_padded width n
  have hlength := length_padded hwidth hn
  have hread : readDigits (some 9) (padded width n).toList = .ok ((padded width n).toList, []) := by
    have hall : readDigits (some 9) ((padded width n).toList ++ []) = _ :=
      readDigits_all hnumeral.ne_nil hnumeral.digits rfl (by simpa [hlength] using hle)
    rwa [List.append_nil] at hall
  simp only [readFraction, hread]
  show Except.ok (_, _) = _
  rw [hnumeral.value, hlength]
  rfl

/-- A written fraction is read back. -/
theorem readFraction_fractionText {nano : Nat} (h : nano < 1000000000) :
    readFraction (fractionText nano).toList = .ok (nano, []) := by
  unfold fractionText
  split
  · rename_i hzero
    rw [hzero]
    rfl
  · have hpoint (s : String) : ("." ++ s).toList = '.' :: s.toList := by
      rw [String.toList_append]
      rfl
    split
    · rename_i hmillis
      rw [hpoint, readFraction_padded (by decide) (by decide) (by omega)]
      have hscale : Nat.pow 10 (9 - 3) = 1000000 := by decide
      rw [hscale, Nat.div_mul_cancel (Nat.dvd_of_mod_eq_zero hmillis)]
    · split
      · rename_i hmicros
        rw [hpoint, readFraction_padded (by decide) (by decide) (by omega)]
        have hscale : Nat.pow 10 (9 - 6) = 1000 := by decide
        rw [hscale, Nat.div_mul_cancel (Nat.dvd_of_mod_eq_zero hmicros)]
      · rw [hpoint, readFraction_padded (by decide) (by decide) (by omega)]
        have hscale : Nat.pow 10 (9 - 9) = 1 := by decide
        rw [hscale, Nat.mul_one]

/-! ### Whole moments -/

/-- A fraction is put into the draft. -/
theorem readPiece_fraction {draft : Draft} {cs rest : List Char} {nano : Nat}
    (h : readFraction cs = .ok (nano, rest)) :
    readPiece (draft, cs) .fraction = .ok ({ draft with nano := nano }, rest) := by
  simp only [readPiece, h]
  rfl

/-- A mark that is no blank may have blanks before it, but none stand there in a written moment. -/
theorem foldlM_mark {c : Char} (hc : isBlank c = false) (draft : Draft) (cs : List Char)
    (pieces : List Piece) :
    (.blanks :: .mark c :: pieces).foldlM readPiece (draft, c :: cs) =
      pieces.foldlM readPiece (draft, cs) := by
  have hblanks : readPiece (draft, c :: cs) .blanks = .ok (draft, c :: cs) := by
    simp only [readPiece, trimFront_of_solid hc]
  rw [foldlM_readPiece hblanks, foldlM_readPiece (readPiece_mark draft c cs)]

/-- The characters of a written moment, part by part. -/
theorem toList_print (t : DateTime) :
    t.print.toList = (yearText t.year).toList ++ '-' :: ((padded 2 t.month).toList ++
      '-' :: ((padded 2 t.day).toList ++ 'T' :: ((padded 2 t.hour).toList ++
        ':' :: ((padded 2 t.minute).toList ++ ':' :: ((padded 2 t.second).toList ++
          (fractionText t.nano).toList))))) := by
  have hdash : "-".toList = ['-'] := by decide
  have hletter : "T".toList = ['T'] := by decide
  have hcolon : ":".toList = [':'] := by decide
  simp [print, hdash, hletter, hcolon]

/-- What is written for a moment denotes it. -/
theorem parse_print (t : DateTime) : parse t.print = .ok t := by
  obtain ⟨hmonth, hday, hhour, hminute, hsecond⟩ := t.parts_in_range
  have hfold : storedLayout.foldlM readPiece (({} : Draft), t.print.toList) =
      .ok (⟨t.year, t.month, t.day, t.hour, t.minute, t.second, t.nano⟩, []) := by
    rw [toList_print, storedLayout]
    rw [foldlM_readPiece (readPiece_year (readYear_yearText t.date.1 rfl))]
    rw [foldlM_mark (by decide), foldlM_readPiece (readPiece_part (readPart_padded hmonth _))]
    rw [foldlM_mark (by decide), foldlM_readPiece (readPiece_part (readPart_padded hday _))]
    rw [foldlM_mark (by decide),
      foldlM_readPiece (readPiece_part (p := .hour) (readPart_padded ⟨Nat.zero_le _, hhour⟩ _))]
    rw [foldlM_mark (by decide),
      foldlM_readPiece (readPiece_part (p := .minute) (readPart_padded ⟨Nat.zero_le _, hminute⟩ _))]
    rw [foldlM_mark (by decide),
      foldlM_readPiece (readPiece_part (p := .second) (readPart_padded ⟨Nat.zero_le _, hsecond⟩ _))]
    rw [foldlM_readPiece (readPiece_fraction (readFraction_fractionText t.time.2.2.2))]
    rfl
  exact read_eq_ok_iff.mpr ⟨_, hfold, ofParts?_self t⟩

/-- A leap second of the year before year 0. -/
example : print ⟨-1, 12, 31, 23, 59, 60, 500000000, by decide, by decide⟩ =
    "-0001-12-31T23:59:60.500" := by
  decide +kernel

end ErrorQuery.DateTime
