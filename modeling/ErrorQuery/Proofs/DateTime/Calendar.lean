import ErrorQuery.Proofs.DateTime.Stored
import ErrorQuery.Proofs.Query.Steps
import ErrorQuery.Proofs.Scan.Origin
import ErrorQuery.Proofs.Text.LetterCase
import ErrorQuery.Query.Stored
import Mathlib.Tactic.IntervalCases

/-!
# Literals that name a moment

A moment in a text of a query looks like `YYYY-MM-DD HH:MM:SS` with digits of any script
(`Strategy.exists_stamp_of_mem_body`).  It is read exactly if its digits are those of ASCII and name
a day of the Gregorian calendar and a time of day (`NamesMoment`), and the stored form of the moment
is the literal with a `T` in place of its space (`moments_are_days_of_the_calendar`).

Whatever a reading takes from a text is a mark, a blank or an ASCII digit (`foldlM_consumes`), so a
literal with any other digit is not read to its end.  Of ASCII digits each number is read whole, and
the numbers are those of a moment or not (`Stamp.exists_ofLiteral?_iff`).
-/

set_option autoImplicit false

namespace ErrorQuery

open Text

/-! ### The calendar -/

namespace Calendar

/-- The lengths of the months of a year: every fourth year is a leap year, but of the full
centuries only every fourth. -/
def monthLengths (year : Nat) : List Nat :=
  [31, if 4 ∣ year ∧ (100 ∣ year → 400 ∣ year) then 29 else 28, 31, 30, 31, 30, 31, 31, 30, 31, 30,
    31]

/-- A leap year is divisible by four, and by four hundred if it ends a century. -/
theorem isLeapYear_iff (year : Nat) :
    isLeapYear year = true ↔ 4 ∣ year ∧ (100 ∣ year → 400 ∣ year) := by
  simp only [isLeapYear, Bool.and_eq_true, Bool.or_eq_true, beq_iff_eq, bne_iff_ne]
  omega

/-- The days of a month are those that the calendar lists for it. -/
theorem daysInMonth_eq (year : Nat) {month : Nat} (hmonth : 1 ≤ month ∧ month ≤ 12) :
    daysInMonth year month = (monthLengths year).getD (month - 1) 0 := by
  have hleap : (if isLeapYear year then 29 else 28) =
      if 4 ∣ year ∧ (100 ∣ year → 400 ∣ year) then 29 else 28 := by
    simp only [isLeapYear_iff]
  obtain ⟨hlow, hhigh⟩ := hmonth
  by_cases hfebruary : month = 2
  · rw [hfebruary]
    exact hleap
  · interval_cases month
    · rfl
    · contradiction
    all_goals rfl

end Calendar

namespace DateTime

/-- The number that the digits from the given place of a literal on denote. -/
def numberAt (start width : Nat) (s : String) : Nat :=
  digitsValue ((s.toList.drop start).take width)

/-- The number at a place is that of the digits which stand there. -/
theorem numberAt_of_split (before : List Char) {ds rest : List Char} {s : String}
    {start width : Nat} (h : s.toList = before ++ (ds ++ rest)) (hstart : before.length = start)
    (hwidth : ds.length = width) : numberAt start width s = digitsValue ds := by
  rw [numberAt, h, ← hstart, ← hwidth, List.drop_left, List.take_left]

/-- The text has no digits but those of ASCII. -/
def AsciiDigitsOnly (cs : List Char) : Prop :=
  ∀ c ∈ cs, isDecimalDigit c = true → isAsciiDigit c = true

instance (cs : List Char) : Decidable (AsciiDigitsOnly cs) :=
  List.decidableBAll (fun c => isDecimalDigit c = true → isAsciiDigit c = true) cs

/-- The digits of a literal `YYYY-MM-DD HH:MM:SS` are those of ASCII and name a day of the calendar
and a time of day, a leap second included. -/
structure NamesMoment (s : String) : Prop where
  ascii : AsciiDigitsOnly s.toList
  month : 1 ≤ numberAt 5 2 s ∧ numberAt 5 2 s ≤ 12
  day : 1 ≤ numberAt 8 2 s ∧
    numberAt 8 2 s ≤ (Calendar.monthLengths (numberAt 0 4 s)).getD (numberAt 5 2 s - 1) 0
  hour : numberAt 11 2 s ≤ 23
  minute : numberAt 14 2 s ≤ 59
  second : numberAt 17 2 s ≤ 60

/-! ### What a reading takes -/

/-- The rest of a text is what is left of it behind marks, blanks and ASCII digits. -/
def LeavesBehind (cs rest : List Char) : Prop :=
  ∃ taken, cs = taken ++ rest ∧ AsciiDigitsOnly taken

namespace LeavesBehind

variable {cs ds rest : List Char}

/-- A text is left of itself. -/
theorem refl (cs : List Char) : LeavesBehind cs cs :=
  ⟨[], rfl, by simp [AsciiDigitsOnly]⟩

/-- What is left of what is left is left of the whole. -/
theorem trans (h : LeavesBehind cs ds) (h' : LeavesBehind ds rest) : LeavesBehind cs rest := by
  obtain ⟨taken, rfl, htaken⟩ := h
  obtain ⟨more, rfl, hmore⟩ := h'
  refine ⟨taken ++ more, by simp, fun c hc => ?_⟩
  rcases List.mem_append.mp hc with hc | hc
  · exact htaken c hc
  · exact hmore c hc

/-- A mark may be taken off the front. -/
theorem mark {m : Char} (hm : isDecimalDigit m = false) (cs : List Char) :
    LeavesBehind (m :: cs) cs := by
  refine ⟨[m], rfl, fun c hc hdigit => ?_⟩
  rw [List.mem_singleton.mp hc, hm] at hdigit
  contradiction

/-- Blanks may be taken off the front. -/
theorem blanks (cs : List Char) : LeavesBehind cs (trimFront cs) := by
  refine ⟨cs.takeWhile isBlank, List.takeWhile_append_dropWhile.symm, fun c hc hdigit => ?_⟩
  have hblank := List.all_eq_true.mp List.all_takeWhile c hc
  rw [isDecimalDigit_of_isBlank hblank] at hdigit
  contradiction

/-- The digits that are read are ASCII digits. -/
theorem digits {most : Option Nat} {ds : List Char} (h : readDigits most cs = .ok (ds, rest)) :
    LeavesBehind cs rest := by
  have hread {digits : List Char}
      (h : (if cs.isEmpty then .error .premature
        else if digits.isEmpty then .error .unexpected
        else .ok (digits, cs.drop digits.length) : Except Fault (List Char × List Char)) =
          .ok (ds, rest)) : ds = digits ∧ rest = cs.drop ds.length := by
    split at h
    · contradiction
    · split at h
      · contradiction
      · cases h
        exact ⟨rfl, rfl⟩
  have hprefix : ∃ n, ds = (cs.takeWhile isAsciiDigit).take n ∧ rest = cs.drop ds.length := by
    cases most with
    | some n => exact ⟨n, hread h⟩
    | none =>
        refine ⟨(cs.takeWhile isAsciiDigit).length, ?_⟩
        rw [List.take_length]
        exact hread h
  obtain ⟨n, hds, rfl⟩ := hprefix
  have htake : cs.take ds.length = ds := by
    have hpre : ds <+: cs := by
      rw [hds]
      exact (List.take_prefix n _).trans (List.takeWhile_prefix _)
    exact (List.prefix_iff_eq_take.mp hpre).symm
  refine ⟨ds, ?_, fun c hc _ => ?_⟩
  · nth_rewrite 1 [← htake]
    exact (List.take_append_drop ds.length cs).symm
  · rw [hds] at hc
    exact List.all_eq_true.mp List.all_takeWhile c (List.mem_of_mem_take hc)

end LeavesBehind

/-- A year takes marks, blanks and ASCII digits only. -/
theorem readYear_consumes {cs rest : List Char} {year : Int} (h : readYear cs = .ok (year, rest)) :
    LeavesBehind cs rest := by
  have hrange {value : Int} {behind : List Char}
      (h : (if -2147483648 ≤ value ∧ value ≤ 2147483647 then .ok (value, behind)
        else .error .outOfRange : Except Fault (Int × List Char)) = .ok (year, rest)) :
      behind = rest := by
    split at h
    · cases h
      rfl
    · contradiction
  refine (LeavesBehind.blanks cs).trans ?_
  unfold readYear at h
  split at h
  · rename_i ds hminus
    obtain ⟨⟨digits, behind⟩, hdigits, hvalue⟩ := bind_eq_ok_iff.mp h
    obtain rfl := hrange hvalue
    rw [hminus]
    exact (LeavesBehind.mark (by decide) ds).trans (.digits hdigits)
  · rename_i ds hplus
    obtain ⟨⟨digits, behind⟩, hdigits, hvalue⟩ := bind_eq_ok_iff.mp h
    obtain rfl := hrange hvalue
    rw [hplus]
    exact (LeavesBehind.mark (by decide) ds).trans (.digits hdigits)
  · obtain ⟨⟨digits, behind⟩, hdigits, hvalue⟩ := bind_eq_ok_iff.mp h
    obtain rfl := hrange hvalue
    exact .digits hdigits

/-- A part of a moment takes blanks and ASCII digits only. -/
theorem readPart_consumes {p : Part} {cs rest : List Char} {n : Nat}
    (h : readPart p cs = .ok (n, rest)) : LeavesBehind cs rest := by
  unfold readPart at h
  obtain ⟨⟨digits, behind⟩, hdigits, hrange⟩ := bind_eq_ok_iff.mp h
  simp only at hrange
  split at hrange
  · cases hrange
    exact (LeavesBehind.blanks cs).trans (.digits hdigits)
  · contradiction

/-- A piece takes nothing but a mark, blanks and ASCII digits. -/
theorem readPiece_consumes {piece : Piece} (hfraction : piece ≠ .fraction)
    (hmark : ∀ m, piece = .mark m → isDecimalDigit m = false) {state next : Draft × List Char}
    (h : readPiece state piece = .ok next) : LeavesBehind state.2 next.2 := by
  cases piece with
  | fraction => contradiction
  | blanks =>
      cases h
      exact .blanks state.2
  | year =>
      obtain ⟨⟨year, rest⟩, hread, hnext⟩ := bind_eq_ok_iff.mp h
      cases hnext
      exact readYear_consumes hread
  | part p =>
      obtain ⟨⟨n, rest⟩, hread, hnext⟩ := bind_eq_ok_iff.mp h
      cases hnext
      exact readPart_consumes hread
  | mark m =>
      simp only [readPiece] at h
      split at h
      · contradiction
      · rename_i c cs hcs
        split at h
        · rename_i hc
          cases h
          rw [hcs, hc]
          exact .mark (hmark m rfl) cs
        · contradiction

/-- Pieces other than a fraction take marks, blanks and ASCII digits only. -/
theorem foldlM_consumes {pieces : List Piece}
    (hpieces : ∀ piece ∈ pieces,
      piece ≠ .fraction ∧ ∀ m, piece = .mark m → isDecimalDigit m = false)
    {state final : Draft × List Char} (h : pieces.foldlM readPiece state = .ok final) :
    LeavesBehind state.2 final.2 := by
  induction pieces generalizing state with
  | nil =>
      cases h
      exact .refl _
  | cons piece pieces ih =>
      obtain ⟨hfraction, hmark⟩ := hpieces piece (by simp)
      obtain ⟨next, hstep, hrest⟩ := exists_of_foldlM_cons h
      exact (readPiece_consumes hfraction hmark hstep).trans
        (ih (fun p hp => hpieces p (List.mem_cons_of_mem _ hp)) hrest)

/-- A literal that denotes a moment has no digits but those of ASCII. -/
theorem asciiDigitsOnly_of_ofLiteral? {s : String} {t : DateTime} (h : ofLiteral? s = some t) :
    AsciiDigitsOnly s.toList := by
  obtain ⟨draft, hfold, -⟩ := ofLiteral?_eq_some_iff.mp h
  have hpieces : ∀ piece ∈ queryLayout,
      piece ≠ .fraction ∧ ∀ m, piece = .mark m → isDecimalDigit m = false := by
    simp [queryLayout]
    decide
  obtain ⟨taken, hsplit, htaken⟩ := foldlM_consumes hpieces hfold
  have hall : s.toList = taken := by simpa using hsplit
  rwa [hall]

/-! ### Timestamps -/

/-- The digits of a text `YYYY-MM-DD HH:MM:SS`, which may be of any script. -/
structure Stamp where
  year : List Char
  month : List Char
  day : List Char
  hour : List Char
  minute : List Char
  second : List Char
  length_year : year.length = 4
  length_other : ∀ ds ∈ [month, day, hour, minute, second], ds.length = 2
  digits : ∀ ds ∈ [year, month, day, hour, minute, second], ∀ c ∈ ds, isDecimalDigit c = true

namespace Stamp

/-- The characters of a timestamp. -/
def chars (stamp : Stamp) : List Char :=
  stamp.year ++ '-' :: (stamp.month ++ '-' :: (stamp.day ++ ' ' ::
    (stamp.hour ++ ':' :: (stamp.minute ++ ':' :: stamp.second))))

/-- A year is written with four digits, and every other part with two. -/
theorem lengths (stamp : Stamp) :
    stamp.year.length = 4 ∧ stamp.month.length = 2 ∧ stamp.day.length = 2 ∧
      stamp.hour.length = 2 ∧ stamp.minute.length = 2 ∧ stamp.second.length = 2 := by
  have hlength := stamp.length_other
  simp only [List.forall_mem_cons, List.not_mem_nil, false_implies, implies_true, and_true]
    at hlength
  exact ⟨stamp.length_year, hlength⟩

/-- The parts of a stamp stand at fixed places. -/
theorem numberAt_chars (stamp : Stamp) {s : String} (h : s.toList = stamp.chars) :
    numberAt 0 4 s = digitsValue stamp.year ∧ numberAt 5 2 s = digitsValue stamp.month ∧
      numberAt 8 2 s = digitsValue stamp.day ∧ numberAt 11 2 s = digitsValue stamp.hour ∧
      numberAt 14 2 s = digitsValue stamp.minute ∧ numberAt 17 2 s = digitsValue stamp.second := by
  obtain ⟨hyear, hmonth, hday, hhour, hminute, hsecond⟩ := stamp.lengths
  rw [chars] at h
  have hend : s.toList = stamp.year ++ '-' :: (stamp.month ++ '-' :: (stamp.day ++ ' ' ::
      (stamp.hour ++ ':' :: (stamp.minute ++ ':' :: (stamp.second ++ []))))) := by
    rw [h, List.append_nil]
  refine ⟨numberAt_of_split [] h rfl hyear,
    numberAt_of_split (stamp.year ++ ['-']) (by simpa using h) (by simp [hyear]) hmonth,
    numberAt_of_split (stamp.year ++ '-' :: (stamp.month ++ ['-'])) (by simpa using h)
      (by simp [hyear, hmonth]) hday,
    numberAt_of_split (stamp.year ++ '-' :: (stamp.month ++ '-' :: (stamp.day ++ [' '])))
      (by simpa using h) (by simp [hyear, hmonth, hday]) hhour,
    numberAt_of_split (stamp.year ++ '-' :: (stamp.month ++ '-' :: (stamp.day ++
      ' ' :: (stamp.hour ++ [':'])))) (by simpa using h) (by simp [hyear, hmonth, hday, hhour])
      hminute,
    numberAt_of_split (stamp.year ++ '-' :: (stamp.month ++ '-' :: (stamp.day ++ ' ' ::
      (stamp.hour ++ ':' :: (stamp.minute ++ [':'])))))
      (by simpa only [List.append_assoc, List.cons_append, List.nil_append] using hend)
      (by simp [hyear, hmonth, hday, hhour, hminute]) hsecond⟩

/-- The digits of a timestamp whose digits are those of ASCII are numerals. -/
theorem isNumeral (stamp : Stamp) (hascii : AsciiDigitsOnly stamp.chars) {ds : List Char}
    (hds : ds ∈ [stamp.year, stamp.month, stamp.day, stamp.hour, stamp.minute, stamp.second]) :
    IsNumeral ds (digitsValue ds) := by
  have hmem : ∀ c ∈ ds, c ∈ stamp.chars := by
    intro c hc
    simp only [List.mem_cons, List.not_mem_nil, or_false] at hds
    rcases hds with rfl | rfl | rfl | rfl | rfl | rfl
    all_goals simp [chars, hc]
  have hlength : 0 < ds.length := by
    obtain ⟨hyear, hmonth, hday, hhour, hminute, hsecond⟩ := stamp.lengths
    simp only [List.mem_cons, List.not_mem_nil, or_false] at hds
    rcases hds with rfl | rfl | rfl | rfl | rfl | rfl <;> omega
  exact ⟨List.ne_nil_of_length_pos hlength,
    fun c hc => hascii c (hmem c hc) (stamp.digits ds hds c hc), rfl⟩

/-- A part of a timestamp is read whole if the reading goes on behind it. -/
theorem foldlM_part {p : Part} {ds : List Char} {n : Nat} (h : IsNumeral ds n)
    (hlen : ds.length = 2) {pieces : List Piece} {draft : Draft} {rest : List Char}
    {final : Draft × List Char}
    (hfold : (.part p :: pieces).foldlM readPiece (draft, ds ++ rest) = .ok final) :
    pieces.foldlM readPiece (p.set draft n, rest) = .ok final := by
  obtain ⟨next, hstep, hrest⟩ := exists_of_foldlM_cons hfold
  obtain ⟨⟨m, behind⟩, hread, hnext⟩ := bind_eq_ok_iff.mp hstep
  rw [readPart_of_isNumeral h hlen] at hread
  split at hread
  · cases hread
    cases hnext
    exact hrest
  · contradiction

/-- The numbers of a moment that a timestamp denotes are those in it. -/
theorem digitsValue_of_ofLiteral? (stamp : Stamp) {s : String} (hs : s.toList = stamp.chars)
    {t : DateTime} (h : ofLiteral? s = some t) :
    digitsValue stamp.year = t.year ∧ digitsValue stamp.month = t.month ∧
      digitsValue stamp.day = t.day ∧ digitsValue stamp.hour = t.hour ∧
      digitsValue stamp.minute = t.minute ∧ digitsValue stamp.second = t.second := by
  have hascii : AsciiDigitsOnly stamp.chars := hs ▸ asciiDigitsOnly_of_ofLiteral? h
  have hnumeral {ds : List Char} (hds : ds ∈ [stamp.year, stamp.month, stamp.day, stamp.hour,
      stamp.minute, stamp.second]) := stamp.isNumeral hascii hds
  obtain ⟨hyear, hmonth, hday, hhour, hminute, hsecond⟩ := stamp.lengths
  have hvalue : digitsValue stamp.year < 10 ^ stamp.year.length :=
    digitsValue_lt (hnumeral (by simp)).digits
  rw [hyear] at hvalue
  obtain ⟨draft, hfold, hdate⟩ := ofLiteral?_eq_some_iff.mp h
  rw [hs, chars, queryLayout] at hfold
  rw [foldlM_readPiece (readPiece_year (readYear_append (hnumeral (by simp)) hyear (by omega) _)),
    foldlM_readPiece (readPiece_mark _ _ _)] at hfold
  have hbehindMonth := foldlM_part (hnumeral (by simp)) hmonth hfold
  rw [foldlM_readPiece (readPiece_mark _ _ _)] at hbehindMonth
  have hbehindDay := foldlM_part (hnumeral (by simp)) hday hbehindMonth
  rw [foldlM_readPiece (readPiece_blanks _ (hnumeral (by simp)) _)] at hbehindDay
  have hbehindHour := foldlM_part (hnumeral (by simp)) hhour hbehindDay
  rw [foldlM_readPiece (readPiece_mark _ _ _)] at hbehindHour
  have hbehindMinute := foldlM_part (hnumeral (by simp)) hminute hbehindHour
  rw [foldlM_readPiece (readPiece_mark _ _ _), ← List.append_nil stamp.second] at hbehindMinute
  have hbehindSecond := foldlM_part (hnumeral (by simp)) hsecond hbehindMinute
  cases hbehindSecond
  unfold Draft.toDateTime? ofParts? at hdate
  split at hdate
  · cases hdate
    exact ⟨rfl, rfl, rfl, rfl, rfl, rfl⟩
  · contradiction

/-- A moment with the numbers of a timestamp has it as its literal. -/
theorem literal_eq (stamp : Stamp) {s : String} (hs : s.toList = stamp.chars)
    (hascii : AsciiDigitsOnly s.toList) {t : DateTime}
    (hparts : digitsValue stamp.year = t.year ∧ digitsValue stamp.month = t.month ∧
      digitsValue stamp.day = t.day ∧ digitsValue stamp.hour = t.hour ∧
      digitsValue stamp.minute = t.minute ∧ digitsValue stamp.second = t.second) :
    t.literal = s := by
  rw [hs] at hascii
  obtain ⟨hyear, hmonth, hday, hhour, hminute, hsecond⟩ := hparts
  obtain ⟨lyear, lmonth, lday, lhour, lminute, lsecond⟩ := stamp.lengths
  have hpadded {ds : List Char} {width : Nat} (hds : ds ∈ [stamp.year, stamp.month, stamp.day,
      stamp.hour, stamp.minute, stamp.second]) (hwidth : ds.length = width) :
      (padded width (digitsValue ds)).toList = ds := by
    rw [← hwidth]
    exact padded_of_isNumeral (stamp.isNumeral hascii hds)
  have hnat : t.year.natAbs = digitsValue stamp.year := by omega
  refine String.toList_inj.mp ?_
  rw [toList_literal, hs, chars, hnat, ← hmonth, ← hday, ← hhour, ← hminute, ← hsecond,
    hpadded (by simp) lyear, hpadded (by simp) lmonth, hpadded (by simp) lday,
    hpadded (by simp) lhour, hpadded (by simp) lminute, hpadded (by simp) lsecond]

/-- A timestamp denotes a moment exactly if its digits are those of ASCII and name one. -/
theorem exists_ofLiteral?_iff (stamp : Stamp) {s : String} (hs : s.toList = stamp.chars) :
    (∃ t, ofLiteral? s = some t) ↔ NamesMoment s := by
  obtain ⟨nyear, nmonth, nday, nhour, nminute, nsecond⟩ := stamp.numberAt_chars hs
  constructor
  · rintro ⟨t, h⟩
    obtain ⟨hyear, hmonth, hday, hhour, hminute, hsecond⟩ := stamp.digitsValue_of_ofLiteral? hs h
    obtain ⟨-, hmonths, hlow, hhigh⟩ := t.date
    obtain ⟨hhours, hminutes, hseconds, -⟩ := t.time
    rw [← hyear, Calendar.daysInMonth_eq _ hmonths] at hhigh
    refine ⟨asciiDigitsOnly_of_ofLiteral? h, ?_, ?_, ?_, ?_, ?_⟩
    · rwa [nmonth, hmonth]
    · rw [nday, nmonth, nyear, hday, hmonth]
      exact ⟨hlow, hhigh⟩
    · rwa [nhour, hhour]
    · rwa [nminute, hminute]
    · rwa [nsecond, hsecond]
  · -- the numbers of the stamp make a moment, and its literal is the stamp
    intro h
    have hbound : digitsValue stamp.year < 10 ^ stamp.year.length :=
      digitsValue_lt (stamp.isNumeral (hs ▸ h.ascii) (by simp)).digits
    rw [stamp.length_year] at hbound
    have hdays := Calendar.daysInMonth_eq (numberAt 0 4 s) h.month
    have hdate : Calendar.IsDate (numberAt 0 4 s) (numberAt 5 2 s) (numberAt 8 2 s) := by
      refine ⟨?_, h.month, ?_⟩
      · rw [Calendar.firstYear, Calendar.lastYear]
        omega
      · rw [hdays]
        exact h.day
    let t : DateTime := ⟨numberAt 0 4 s, numberAt 5 2 s, numberAt 8 2 s, numberAt 11 2 s,
      numberAt 14 2 s, numberAt 17 2 s, 0, hdate, h.hour, h.minute, h.second, by decide⟩
    have hwritable : t.Writable := by
      refine ⟨?_, rfl⟩
      show 0 ≤ ((numberAt 0 4 s : Nat) : Int) ∧ ((numberAt 0 4 s : Nat) : Int) ≤ 9999
      omega
    have hliteral : t.literal = s := by
      refine stamp.literal_eq hs h.ascii ⟨?_, nmonth.symm, nday.symm, nhour.symm, nminute.symm,
        nsecond.symm⟩
      rw [← nyear]
    exact ⟨t, hliteral ▸ ofLiteral?_literal hwritable⟩

end Stamp

/-- What is stored of a moment that can be written is its literal with a `T` for the space. -/
theorem print_of_writable {t : DateTime} (h : t.Writable) :
    t.print = t.literal.map fun c => if c = ' ' then 'T' else c := by
  have hdigits (width n : Nat) :
      (padded width n).toList.map (fun c => if c = ' ' then 'T' else c) =
        (padded width n).toList := by
    refine (List.map_congr_left fun c hc => ?_).trans (List.map_id _)
    have hc := (isNumeral_padded width n).digits c hc
    rw [if_neg]
    · rfl
    · rintro rfl
      exact absurd hc (by decide)
  have hyear : yearText t.year = padded 4 t.year.natAbs := if_pos h.1
  refine String.toList_inj.mp ?_
  rw [toList_print, String.toList_map, toList_literal, h.2, hyear]
  simp [hdigits, fractionText]

end DateTime

/-! ### Literals of a text -/

/-- A shape that begins with digits fits texts that begin with as many digits. -/
theorem Shape.exists_of_fits_digits (count : Nat) {t : Shape} {cs : List Char}
    (h : Shape.fits (Shape.digits count ++ t) cs = true) :
    ∃ ds rest, cs = ds ++ rest ∧ ds.length = count ∧ (∀ c ∈ ds, isDecimalDigit c = true) ∧
      t.fits rest = true := by
  induction count generalizing cs with
  | zero => exact ⟨[], cs, rfl, rfl, by simp, h⟩
  | succ count ih =>
      obtain ⟨c, cs, rfl, hc, hrest⟩ := Shape.exists_cons_of_fits h
      obtain ⟨ds, rest, rfl, hlen, hds, ht⟩ := ih hrest
      exact ⟨c :: ds, rest, rfl, by rw [List.length_cons, hlen], by simpa using ⟨hc, hds⟩, ht⟩

/-- A shape that begins with a mark fits texts that begin with the mark. -/
theorem Shape.exists_of_fits_mark (m : Char) (hfold : fold m = m)
    (hm : m.toNat < 97 ∨ 122 < m.toNat) {t : Shape} {cs : List Char}
    (h : Shape.fits (.letter m :: t) cs = true) : ∃ rest, cs = m :: rest ∧ t.fits rest = true := by
  obtain ⟨c, rest, rfl, hc, hrest⟩ := Shape.exists_cons_of_fits h
  have hsame : fold c = fold m := sameLetter_iff.mp hc
  have hmark : c = m := eq_of_fold_eq hm (hsame.trans hfold)
  exact ⟨rest, by rw [hmark], hrest⟩

/-- The value of a moment in a text is a timestamp. -/
theorem Strategy.exists_stamp_of_mem_body {strategy : Strategy} {cs : List Char} {token : Token}
    (h : token ∈ strategy.body cs) (hkind : token.kind = .dateTime) :
    ∃ stamp : DateTime.Stamp, token.value.toList = stamp.chars := by
  obtain ⟨rule, hrule, before, taken, rest, -, ht, rfl⟩ :=
    fromRule_of_mem_body h (by rw [hkind]; decide)
  have hp : rule.pattern = .timestamp := (Rule.pattern_iff_kind hrule).2.2.mpr hkind
  have hvalue : rule.pattern.value taken = taken := by
    rw [hp]
    rfl
  rw [Rule.token, String.toList_ofList, hvalue]
  obtain ⟨s, hs, hfits, hlen⟩ | ⟨hquoted, -⟩ | ⟨hdigits, -⟩ := Rule.takes_cases ht
  · rw [hp] at hs
    rw [List.mem_singleton.mp hs] at hfits hlen
    -- the shape of a moment is taken off part by part
    obtain ⟨year, cs, rfl, hyear, dyear, hcs⟩ := Shape.exists_of_fits_digits 4 hfits
    obtain ⟨cs, rfl, hcs⟩ := Shape.exists_of_fits_mark '-' (by decide) (by decide) hcs
    obtain ⟨month, cs, rfl, hmonth, dmonth, hcs⟩ := Shape.exists_of_fits_digits 2 hcs
    obtain ⟨cs, rfl, hcs⟩ := Shape.exists_of_fits_mark '-' (by decide) (by decide) hcs
    obtain ⟨day, cs, rfl, hday, dday, hcs⟩ := Shape.exists_of_fits_digits 2 hcs
    obtain ⟨cs, rfl, hcs⟩ := Shape.exists_of_fits_mark ' ' (by decide) (by decide) hcs
    obtain ⟨hour, cs, rfl, hhour, dhour, hcs⟩ := Shape.exists_of_fits_digits 2 hcs
    obtain ⟨cs, rfl, hcs⟩ := Shape.exists_of_fits_mark ':' (by decide) (by decide) hcs
    obtain ⟨minute, cs, rfl, hminute, dminute, hcs⟩ := Shape.exists_of_fits_digits 2 hcs
    obtain ⟨cs, rfl, hcs⟩ := Shape.exists_of_fits_mark ':' (by decide) (by decide) hcs
    obtain ⟨second, cs, rfl, hsecond, dsecond, -⟩ := Shape.exists_of_fits_digits 2 hcs
    have hrest : cs = [] := by
      have hwidth : (Shape.digits 4 ++ Shape.word "-" ++ Shape.digits 2 ++ Shape.word "-" ++
          Shape.digits 2 ++ Shape.word " " ++ Shape.digits 2 ++ Shape.word ":" ++
          Shape.digits 2 ++ Shape.word ":" ++ Shape.digits 2).length = 19 := by
        decide
      rw [hwidth] at hlen
      simp only [List.length_append, List.length_cons] at hlen
      exact List.length_eq_zero_iff.mp (by omega)
    refine ⟨⟨year, month, day, hour, minute, second, hyear, ?_, ?_⟩, ?_⟩
    · simp [hmonth, hday, hhour, hminute, hsecond]
    · simpa using ⟨dyear, dmonth, dday, dhour, dminute, dsecond⟩
    · rw [hrest, List.append_nil]
      rfl
  · rw [hp] at hquoted
    contradiction
  · rw [hp] at hdigits
    contradiction

/-- A moment is accepted at either end of a range exactly if its digits are those of ASCII and name
a day of the calendar and a time of day, and it is stored as its literal with a `T` for the
space. -/
theorem moments_are_days_of_the_calendar (strategy : Strategy) (text : String) (token : Token)
    (h : token ∈ strategy.tokenize text) (hkind : token.kind = .dateTime) :
    ((∃ t, DateTime.ofLiteral? token.value = some t) ↔ DateTime.NamesMoment token.value) ∧
      (∀ t, DateTime.ofLiteral? token.value = some t →
        t.toJson = .string (token.value.map fun c => if c = ' ' then 'T' else c)) ∧
      ∀ conditions,
        ((∃ next, (Reading.first conditions).step token = .ok next) ↔
          DateTime.NamesMoment token.value) ∧
        ∀ first, (∃ next, (Reading.last conditions first).step token = .ok next) ↔
          DateTime.NamesMoment token.value := by
  have hbody : token ∈ strategy.body text.toList := by
    rw [Strategy.tokenize_eq_body, List.mem_append] at h
    rcases h with h | h
    · exact h
    · rw [List.mem_singleton.mp h] at hkind
      contradiction
  obtain ⟨stamp, hstamp⟩ := Strategy.exists_stamp_of_mem_body hbody hkind
  have hiff := stamp.exists_ofLiteral?_iff hstamp
  refine ⟨hiff, fun t ht => ?_, fun conditions => ⟨?_, fun first => ?_⟩⟩
  · have hliteral : t.literal = token.value :=
      stamp.literal_eq hstamp (DateTime.asciiDigitsOnly_of_ofLiteral? ht)
        (stamp.digitsValue_of_ofLiteral? hstamp ht)
    have hwritable : t.Writable :=
      DateTime.writable_of_ofLiteral? ht (Strategy.startsWithDigit_of_mem_body hbody hkind)
    rw [DateTime.toJson, DateTime.print_of_writable hwritable, hliteral]
  · rw [← hiff]
    simp only [Reading.step_eq_ok_iff]
    constructor
    · rintro ⟨_, hstep⟩
      cases hstep with
      | first _ hread => exact ⟨_, hread⟩
    · rintro ⟨t, ht⟩
      exact ⟨_, .first hkind ht⟩
  · rw [← hiff]
    simp only [Reading.step_eq_ok_iff]
    constructor
    · rintro ⟨_, hstep⟩
      cases hstep with
      | last _ hread => exact ⟨_, hread⟩
    · rintro ⟨u, hu⟩
      exact ⟨_, .last hkind hu⟩

/-- The leap day of year 0 with a leap second is a moment; with an Arabic-Indic digit it is not. -/
theorem moments_are_days_of_the_calendar_in_year_zero :
    (∃ t, DateTime.ofLiteral? "0000-02-29 23:59:60" = some t ∧
      t.toJson = .string "0000-02-29T23:59:60") ∧
      ∀ next, (Reading.first []).step ⟨.dateTime, "0000-02-2\u0669 23:59:60", ⟨0, 20⟩⟩ ≠
        .ok next := by
  constructor
  · obtain ⟨hiff, hstored, -⟩ := moments_are_days_of_the_calendar .precedence
      "x0000-02-29 23:59:60" ⟨.dateTime, "0000-02-29 23:59:60", ⟨1, 20⟩⟩ (by decide +kernel) rfl
    have hnames : DateTime.NamesMoment "0000-02-29 23:59:60" := by
      constructor <;> decide +kernel
    obtain ⟨t, ht⟩ := hiff.mpr hnames
    refine ⟨t, ht, ?_⟩
    have hmap : "0000-02-29 23:59:60".map (fun c => if c = ' ' then 'T' else c) =
        "0000-02-29T23:59:60" := by
      decide +kernel
    rw [hstored t ht, hmap]
  · obtain ⟨-, -, hfirst⟩ := moments_are_days_of_the_calendar .sequential
      "0000-02-2\u0669 23:59:60" ⟨.dateTime, "0000-02-2\u0669 23:59:60", ⟨0, 20⟩⟩
      (by decide +kernel) rfl
    intro next hnext
    have hascii := ((hfirst []).1.mp ⟨next, hnext⟩).ascii
    revert hascii
    decide +kernel

end ErrorQuery
