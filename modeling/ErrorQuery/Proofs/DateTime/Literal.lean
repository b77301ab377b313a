import ErrorQuery.DateTime.Reader
import ErrorQuery.Proofs.Fallible
import ErrorQuery.Proofs.Text.Classes
import ErrorQuery.Proofs.Text.Numerals

/-!
# Moments as literals of a query

A moment of a four-digit year and a whole second is written as `YYYY-MM-DD HH:MM:SS`
(`DateTime.literal`).  Reading such a literal gives the moment back (`ofLiteral?_literal`), and a
literal that begins with a digit never denotes any other moment (`writable_of_ofLiteral?`).
-/

set_option autoImplicit false

namespace ErrorQuery.DateTime

open Text

/-- The year has at most four digits and there is no fraction of a second. -/
def Writable (t : DateTime) : Prop :=
  (0 ≤ t.year ∧ t.year ≤ 9999) ∧ t.nano = 0

/-- The literal of a moment. -/
def literal (t : DateTime) : String :=
  padded 4 t.year.natAbs ++ "-" ++ padded 2 t.month ++ "-" ++ padded 2 t.day ++ " " ++
    padded 2 t.hour ++ ":" ++ padded 2 t.minute ++ ":" ++ padded 2 t.second

/-! ### Reading what was written -/

/-- As many digits as may be read are read, and what is behind them is left. -/
theorem readDigits_append {ds : List Char} (hne : ds ≠ [])
    (hdigits : ∀ c ∈ ds, isAsciiDigit c = true) (rest : List Char) :
    readDigits (some ds.length) (ds ++ rest) = .ok (ds, rest) := by
  have htake : ((ds ++ rest).takeWhile isAsciiDigit).take ds.length = ds := by
    rw [List.takeWhile_append_of_pos hdigits, List.take_left]
  unfold readDigits
  simp [htake, hne]

/-- Nothing is trimmed in front of a character that is not blank. -/
theorem trimFront_of_solid {c : Char} (hc : isBlank c = false) (cs : List Char) :
    trimFront (c :: cs) = c :: cs := by
  rw [trimFront, List.dropWhile_cons_of_neg (by simp [hc])]

/-- Nothing is trimmed in front of a digit. -/
theorem trimFront_of_digit {c : Char} (hc : isDecimalDigit c = true) (cs : List Char) :
    trimFront (c :: cs) = c :: cs := by
  have hblank : isBlank c = false := by
    cases hb : isBlank c with
    | false => rfl
    | true =>
        rw [isDecimalDigit_of_isBlank hb] at hc
        contradiction
  exact trimFront_of_solid hblank cs

/-- Of two ASCII digits a number is read whole and then checked against its range. -/
theorem readPart_of_isNumeral {ds : List Char} {n : Nat} (h : IsNumeral ds n)
    (hlen : ds.length = 2) (p : Part) (rest : List Char) :
    readPart p (ds ++ rest) =
      if p.least ≤ n ∧ n ≤ p.greatest then .ok (n, rest) else .error .outOfRange := by
  have htrim : trimFront (ds ++ rest) = ds ++ rest := by
    obtain ⟨c, cs, rfl⟩ := List.exists_cons_of_ne_nil h.ne_nil
    exact trimFront_of_digit (isDecimalDigit_of_isAsciiDigit (h.digits c (by simp))) _
  have hread := readDigits_append h.ne_nil h.digits rest
  rw [hlen] at hread
  unfold readPart
  rw [htrim, hread, ← h.value]
  rfl

/-- Two digits of a number in range are read as a part. -/
theorem readPart_append {p : Part} {ds : List Char} {n : Nat} (h : IsNumeral ds n)
    (hlen : ds.length = 2) (hrange : p.least ≤ n ∧ n ≤ p.greatest) (rest : List Char) :
    readPart p (ds ++ rest) = .ok (n, rest) := by
  rw [readPart_of_isNumeral h hlen, if_pos hrange]

/-- A number that is written with two digits is read back. -/
theorem readPart_padded {p : Part} {n : Nat} (hrange : p.least ≤ n ∧ n ≤ p.greatest)
    (rest : List Char) : readPart p ((padded 2 n).toList ++ rest) = .ok (n, rest) := by
  have hgreatest : p.greatest ≤ 60 := by cases p <;> decide
  exact readPart_append (isNumeral_padded 2 n) (length_padded (by decide) (by omega)) hrange rest

/-- A year that begins with a digit has at most four of them. -/
theorem readYear_of_digit {c : Char} (hc : isDecimalDigit c = true) (cs : List Char) :
    readYear (c :: cs) =
      match readDigits (some 4) (c :: cs) with
      | .ok (digits, rest) =>
          if -2147483648 ≤ (digitsValue digits : Int) ∧ (digitsValue digits : Int) ≤ 2147483647 then
            .ok ((digitsValue digits : Int), rest)
          else .error .outOfRange
      | .error e => .error e := by
  unfold readYear
  rw [trimFront_of_digit hc]
  split
  · rename_i heq
    obtain ⟨rfl, -⟩ := List.cons.inj heq
    exact absurd hc (by decide)
  · rename_i heq
    obtain ⟨rfl, -⟩ := List.cons.inj heq
    exact absurd hc (by decide)
  · cases readDigits (some 4) (c :: cs) with
    | error e => rfl
    | ok result => rfl

/-- Four digits are read as a year. -/
theorem readYear_append {ds : List Char} {n : Nat} (h : IsNumeral ds n) (hlen : ds.length = 4)
    (hrange : n ≤ 9999) (rest : List Char) : readYear (ds ++ rest) = .ok ((n : Int), rest) := by
  have hread := readDigits_append h.ne_nil h.digits rest
  rw [hlen] at hread
  obtain ⟨c, cs, rfl⟩ := List.exists_cons_of_ne_nil h.ne_nil
  have hc := isDecimalDigit_of_isAsciiDigit (h.digits c (by simp))
  rw [List.cons_append] at hread ⊢
  rw [readYear_of_digit hc, hread]
  simp only [h.value]
  rw [if_pos]
  omega

/-- The first piece is read, and then the others. -/
theorem foldlM_readPiece {piece : Piece} {state next : Draft × List Char}
    (h : readPiece state piece = .ok next) (pieces : List Piece) :
    (piece :: pieces).foldlM readPiece state = pieces.foldlM readPiece next := by
  rw [List.foldlM_cons, h]
  rfl

/-- Pieces can be read only if the first can and the others behind it. -/
theorem exists_of_foldlM_cons {piece : Piece} {pieces : List Piece} {state final : Draft × List Char}
    (h : (piece :: pieces).foldlM readPiece state = .ok final) :
    ∃ next, readPiece state piece = .ok next ∧ pieces.foldlM readPiece next = .ok final := by
  cases hstep : readPiece state piece with
  | error e =>
      rw [List.foldlM_cons, hstep] at h
      contradiction
  | ok next =>
      rw [foldlM_readPiece hstep] at h
      exact ⟨next, rfl, h⟩

/-- A moment is read if the pieces use up the text and their numbers name it. -/
theorem read_eq_ok_iff {layout : List Piece} {cs : List Char} {t : DateTime} :
    read layout cs = .ok t ↔
      ∃ draft, layout.foldlM readPiece (({} : Draft), cs) = .ok (draft, []) ∧
        draft.toDateTime? = some t := by
  rw [read, bind_eq_ok_iff, Prod.exists]
  refine exists_congr fun draft => ?_
  constructor
  · rintro ⟨rest, hfold, hread⟩
    cases rest with
    | cons c rest => simp at hread
    | nil => cases hdate : draft.toDateTime? <;> simp_all
  · rintro ⟨hfold, hdate⟩
    exact ⟨[], hfold, by simp [hdate]⟩

/-- A literal of a query denotes a moment if its pieces use it up and their numbers name the
moment. -/
theorem ofLiteral?_eq_some_iff {s : String} {t : DateTime} :
    ofLiteral? s = some t ↔
      ∃ draft, queryLayout.foldlM readPiece (({} : Draft), s.toList) = .ok (draft, []) ∧
        draft.toDateTime? = some t := by
  rw [ofLiteral?, toOption_eq_some_iff, read_eq_ok_iff]

/-- A year is put into the draft. -/
theorem readPiece_year {draft : Draft} {cs rest : List Char} {year : Int}
    (h : readYear cs = .ok (year, rest)) :
    readPiece (draft, cs) .year = .ok ({ draft with year := year }, rest) := by
  simp only [readPiece, h]
  rfl

/-- A part is put into the draft. -/
theorem readPiece_part {p : Part} {draft : Draft} {cs rest : List Char} {n : Nat}
    (h : readPart p cs = .ok (n, rest)) :
    readPiece (draft, cs) (.part p) = .ok (p.set draft n, rest) := by
  simp only [readPiece, h]
  rfl

/-- A mark is passed over. -/
theorem readPiece_mark (draft : Draft) (c : Char) (cs : List Char) :
    readPiece (draft, c :: cs) (.mark c) = .ok (draft, cs) := by
  simp [readPiece]

/-- A blank in front of a number is passed over. -/
theorem readPiece_blanks (draft : Draft) {ds : List Char} {n : Nat} (h : IsNumeral ds n)
    (rest : List Char) :
    readPiece (draft, ' ' :: (ds ++ rest)) .blanks = .ok (draft, ds ++ rest) := by
  obtain ⟨c, cs, rfl⟩ := List.exists_cons_of_ne_nil h.ne_nil
  have hc := isDecimalDigit_of_isAsciiDigit (h.digits c (by simp))
  have htrim : trimFront (' ' :: (c :: cs ++ rest)) = c :: cs ++ rest := by
    rw [trimFront, List.dropWhile_cons_of_pos isBlank_space]
    exact trimFront_of_digit hc (cs ++ rest)
  simp only [readPiece, htrim]

/-- The characters of a literal, part by part. -/
theorem toList_literal (t : DateTime) :
    t.literal.toList = (padded 4 t.year.natAbs).toList ++ '-' :: ((padded 2 t.month).toList ++
      '-' :: ((padded 2 t.day).toList ++ ' ' :: ((padded 2 t.hour).toList ++
        ':' :: ((padded 2 t.minute).toList ++ ':' :: (padded 2 t.second).toList)))) := by
  have hdash : "-".toList = ['-'] := by decide
  have hspace : " ".toList = [' '] := by decide
  have hcolon : ":".toList = [':'] := by decide
  simp [literal, hdash, hspace, hcolon]

/-- The numbers of a moment are in the ranges that a reader checks. -/
theorem parts_in_range (t : DateTime) :
    (1 ≤ t.month ∧ t.month ≤ 12) ∧ (1 ≤ t.day ∧ t.day ≤ 31) ∧ t.hour ≤ 23 ∧ t.minute ≤ 59 ∧
      t.second ≤ 60 := by
  obtain ⟨-, hmonth, hday, hdays⟩ := t.date
  obtain ⟨hhour, hminute, hsecond, -⟩ := t.time
  have hlong : Calendar.daysInMonth t.year t.month ≤ 31 := by
    unfold Calendar.daysInMonth
    split
    · split <;> omega
    · split <;> omega
  exact ⟨hmonth, ⟨hday, by omega⟩, hhour, hminute, hsecond⟩

/-- The literal of a moment denotes it. -/
theorem ofLiteral?_literal {t : DateTime} (h : t.Writable) : ofLiteral? t.literal = some t := by
  obtain ⟨⟨hlow, hhigh⟩, hnano⟩ := h
  obtain ⟨hmonth, hday, hhour, hminute, hsecond⟩ := t.parts_in_range
  have hyear : ((t.year.natAbs : Nat) : Int) = t.year := Int.natAbs_of_nonneg hlow
  have hfold : queryLayout.foldlM readPiece (({} : Draft), t.literal.toList) =
      .ok (⟨t.year, t.month, t.day, t.hour, t.minute, t.second, 0⟩, []) := by
    rw [toList_literal, queryLayout]
    rw [foldlM_readPiece (readPiece_year (readYear_append (isNumeral_padded 4 _)
      (length_padded (by decide) (by omega)) (by omega) _))]
    rw [foldlM_readPiece (readPiece_mark _ _ _),
      foldlM_readPiece (readPiece_part (readPart_padded hmonth _))]
    rw [foldlM_readPiece (readPiece_mark _ _ _),
      foldlM_readPiece (readPiece_part (readPart_padded hday _))]
    rw [foldlM_readPiece (readPiece_blanks _ (isNumeral_padded 2 _) _)]
    rw [foldlM_readPiece (readPiece_part (p := .hour) (readPart_padded ⟨Nat.zero_le _, hhour⟩ _))]
    rw [foldlM_readPiece (readPiece_mark _ _ _),
      foldlM_readPiece (readPiece_part (p := .minute) (readPart_padded ⟨Nat.zero_le _, hminute⟩ _))]
    have hlast := readPart_padded (p := .second) ⟨Nat.zero_le _, hsecond⟩ []
    rw [List.append_nil] at hlast
    rw [foldlM_readPiece (readPiece_mark _ _ _), foldlM_readPiece (readPiece_part hlast)]
    rw [hyear]
    rfl
  have hparts := ofParts?_self t
  rw [hnano] at hparts
  exact ofLiteral?_eq_some_iff.mpr ⟨_, hfold, hparts⟩

/-! ### What a literal may denote -/

/-- A piece that is neither a year nor a fraction keeps both as they are. -/
theorem readPiece_keeps {piece : Piece} (hyear : piece ≠ .year) (hfraction : piece ≠ .fraction)
    {state next : Draft × List Char} (h : readPiece state piece = .ok next) :
    next.1.year = state.1.year ∧ next.1.nano = state.1.nano := by
  cases piece with
  | year => contradiction
  | fraction => contradiction
  | blanks =>
      cases h
      exact ⟨rfl, rfl⟩
  | mark m =>
      simp only [readPiece] at h
      split at h
      · contradiction
      · split at h
        · cases h
          exact ⟨rfl, rfl⟩
        · contradiction
  | part p =>
      cases hread : readPart p state.2 with
      | error e =>
          simp only [readPiece, hread] at h
          contradiction
      | ok result =>
          rw [show state = (state.1, state.2) from rfl, readPiece_part hread] at h
          cases h
          cases p <;> exact ⟨rfl, rfl⟩

/-- Pieces that are neither years nor fractions keep both as they are. -/
theorem foldlM_keeps {pieces : List Piece}
    (hpieces : ∀ piece ∈ pieces, piece ≠ .year ∧ piece ≠ .fraction)
    {state final : Draft × List Char} (h : pieces.foldlM readPiece state = .ok final) :
    final.1.year = state.1.year ∧ final.1.nano = state.1.nano := by
  induction pieces generalizing state with
  | nil =>
      cases h
      exact ⟨rfl, rfl⟩
  | cons piece pieces ih =>
      obtain ⟨hyear, hfraction⟩ := hpieces piece (by simp)
      obtain ⟨next, hstep, hrest⟩ := exists_of_foldlM_cons h
      have hlater := ih (fun p hp => hpieces p (List.mem_cons_of_mem _ hp)) hrest
      have hfirst := readPiece_keeps hyear hfraction hstep
      exact ⟨hlater.1.trans hfirst.1, hlater.2.trans hfirst.2⟩

/-- A year that begins with a digit has no sign, and so lies between 0 and 9999. -/
theorem year_of_digit {c : Char} (hc : isDecimalDigit c = true) {cs rest : List Char} {year : Int}
    (h : readYear (c :: cs) = .ok (year, rest)) : 0 ≤ year ∧ year ≤ 9999 := by
  rw [readYear_of_digit hc] at h
  cases hread : readDigits (some 4) (c :: cs) with
  | error e =>
      rw [hread] at h
      contradiction
  | ok result =>
      obtain ⟨digits, behind⟩ := result
      -- at most four digits have been read
      have hdigits : digits = ((c :: cs).takeWhile isAsciiDigit).take 4 := by
        unfold readDigits at hread
        simp only [List.isEmpty_cons, Bool.false_eq_true, if_false] at hread
        split at hread
        · contradiction
        · cases hread
          rfl
      have hall : ∀ d ∈ digits, isAsciiDigit d = true := by
        intro d hd
        rw [hdigits] at hd
        have hmem := List.mem_of_mem_take hd
        exact List.all_eq_true.mp List.all_takeWhile d hmem
      have hlen : digits.length ≤ 4 := by
        rw [hdigits]
        exact List.length_take_le _ _
      have hlt : digitsValue digits < 10 ^ 4 :=
        Nat.lt_of_lt_of_le (digitsValue_lt hall) (Nat.pow_le_pow_right (by decide) hlen)
      rw [hread] at h
      simp only at h
      split at h
      · cases h
        omega
      · contradiction

/-- A literal that begins with a digit denotes a moment that can be written. -/
theorem writable_of_ofLiteral? {s : String} {t : DateTime} (h : ofLiteral? s = some t)
    (hs : startsWithDigit s.toList = true) : t.Writable := by
  obtain ⟨draft, hfold, hdate⟩ := ofLiteral?_eq_some_iff.mp h
  obtain ⟨c, cs, hcs⟩ : ∃ c cs, s.toList = c :: cs := by
    cases hlist : s.toList with
    | nil =>
        rw [hlist] at hs
        contradiction
    | cons c cs => exact ⟨c, cs, rfl⟩
  rw [hcs] at hs hfold
  obtain ⟨next, hpiece, hrest⟩ := exists_of_foldlM_cons hfold
  obtain ⟨hyear, hnano⟩ := foldlM_keeps (by decide) hrest
  -- the moment has the year and the fraction of the draft
  have hparts : t.year = draft.year ∧ t.nano = draft.nano := by
    unfold Draft.toDateTime? ofParts? at hdate
    split at hdate
    · cases hdate
      exact ⟨rfl, rfl⟩
    · contradiction
  cases hread : readYear (c :: cs) with
  | error e =>
      simp only [readPiece, hread] at hpiece
      contradiction
  | ok result =>
      rw [readPiece_year hread] at hpiece
      cases hpiece
      rw [Writable, hparts.1, hparts.2, hyear, hnano]
      exact ⟨year_of_digit hs hread, rfl⟩

end ErrorQuery.DateTime
