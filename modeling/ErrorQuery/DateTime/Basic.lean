import ErrorQuery.Text.Numeral

/-!
# Moments in time

A moment is a day of the Gregorian calendar, extended to all years, with a time of day down to
the nanosecond.  Second 60 is a leap second and may stand in any minute.  The conditions that
make the numbers a moment are part of the type, so a value of it is always a real day.

A moment is written as its date and its time of day with a `T` between them, each number with
its full count of digits.  A year that needs more than four digits or lies before year 0 carries
a sign.  The fraction of a second appears only if there is one, in groups of three digits and no
more groups than it needs.
-/

set_option autoImplicit false

namespace ErrorQuery

namespace Calendar

/-- Whether a year has 366 days; year 0 has. -/
def isLeapYear (year : Int) : Bool :=
  year % 4 == 0 && (year % 100 != 0 || year % 400 == 0)

/-- The number of days of a month, from 1 for January on. -/
def daysInMonth (year : Int) (month : Nat) : Nat :=
  if month = 2 then (if isLeapYear year then 29 else 28)
  else if month = 4 ∨ month = 6 ∨ month = 9 ∨ month = 11 then 30
  else 31

/-- The first year that a moment may lie in. -/
def firstYear : Int := -262143

/-- The last year that a moment may lie in. -/
def lastYear : Int := 262142

/-- Whether a year, a month and a day name a day of the calendar. -/
def IsDate (year : Int) (month day : Nat) : Prop :=
  (firstYear ≤ year ∧ year ≤ lastYear) ∧ (1 ≤ month ∧ month ≤ 12) ∧
    (1 ≤ day ∧ day ≤ daysInMonth year month)

instance (year : Int) (month day : Nat) : Decidable (IsDate year month day) :=
  inferInstanceAs (Decidable (_ ∧ _))

/-- Whether an hour, a minute, a second and a nanosecond name a time of day. -/
def IsTime (hour minute second nano : Nat) : Prop :=
  hour ≤ 23 ∧ minute ≤ 59 ∧ second ≤ 60 ∧ nano < 1000000000

instance (hour minute second nano : Nat) : Decidable (IsTime hour minute second nano) :=
  inferInstanceAs (Decidable (_ ∧ _))

end Calendar

/-- A moment in time. -/
structure DateTime where
  year : Int
  month : Nat
  day : Nat
  hour : Nat
  minute : Nat
  second : Nat
  nano : Nat
  date : Calendar.IsDate year month day
  time : Calendar.IsTime hour minute second nano
  deriving DecidableEq

namespace DateTime

/-- The moment with the given numbers, if they name one. -/
def ofParts? (year : Int) (month day hour minute second nano : Nat) : Option DateTime :=
  if h : Calendar.IsDate year month day ∧ Calendar.IsTime hour minute second nano then
    some ⟨year, month, day, hour, minute, second, nano, h.1, h.2⟩
  else none

/-- The numbers of a moment name that moment. -/
theorem ofParts?_self (t : DateTime) :
    ofParts? t.year t.month t.day t.hour t.minute t.second t.nano = some t := by
  simp [ofParts?, t.date, t.time]

open Text

/-- A year with four digits, or with a sign and at least four. -/
def yearText (year : Int) : String :=
  if 0 ≤ year ∧ year ≤ 9999 then padded 4 year.natAbs
  else (if year < 0 then "-" else "+") ++ padded 4 year.natAbs

/-- A fraction of a second given in nanoseconds, nothing if it is zero. -/
def fractionText (nano : Nat) : String :=
  if nano = 0 then ""
  else if nano % 1000000 = 0 then "." ++ padded 3 (nano / 1000000)
  else if nano % 1000 = 0 then "." ++ padded 6 (nano / 1000)
  else "." ++ padded 9 nano

/-- The written form of a moment. -/
def print (t : DateTime) : String :=
  yearText t.year ++ "-" ++ padded 2 t.month ++ "-" ++ padded 2 t.day ++ "T" ++
    padded 2 t.hour ++ ":" ++ padded 2 t.minute ++ ":" ++ padded 2 t.second ++
    fractionText t.nano

end DateTime

end ErrorQuery
