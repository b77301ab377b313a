import ErrorQuery.Decimal.Shortest
import ErrorQuery.Text.Numeral

/-!
# JSON values and their numbers

Stored queries are JSON values.  The members of an object have distinct names, and their order
carries no meaning.

A number written without fraction and exponent is an integer if it fits into 64 bits, with or
without a sign; every other number is a binary floating-point one.  Its value is taken from as
many leading digits as fit into 64 bits, scaled by a power of ten; a number too large for
binary64 is none.  In messages a floating-point number is shown with the fewest digits that read
back, positionally up to sixteen digits before the point and four zeros behind it, otherwise
with an exponent that always has a sign.
-/

set_option autoImplicit false

namespace ErrorQuery

namespace Json

open Text

/-- A number of a JSON text. -/
inductive Number where
  | integer (n : Int)
  | float (x : Float)

/-- A number as it is written: the digits before and behind the point, and the exponent. -/
structure Written where
  negative : Bool
  whole : List Char
  fraction : Option (List Char)
  exponent : Option Int
  deriving DecidableEq, Repr

/-- Appends digits to a significand while it fits into 64 bits; the second component counts
the digits that are left out. -/
def gather (n : Nat) : List Char → Nat × Nat
  | [] => (n, 0)
  | d :: ds =>
      let m := 10 * n + digitValue d
      if m < 0x10000000000000000 then gather m ds else (n, ds.length + 1)

/-- The power of ten nearest to the true one in binary64. -/
def powerOfTen (k : Nat) : Float :=
  Float.ofScientific 1 false k

/-- A significand times a power of ten in binary64, unless that is too large. -/
def scale? (significand : Nat) (exponent : Int) : Option Float :=
  let x := significand.toUInt64.toFloat
  if significand = 0 then some x
  else if 0 ≤ exponent then
    if exponent ≤ 308 then
      let y := x * powerOfTen exponent.toNat
      if y.isInf then none else some y
    else none
  else if -308 ≤ exponent then some (x / powerOfTen exponent.natAbs)
  else if -616 ≤ exponent then some (x / powerOfTen 308 / powerOfTen (exponent.natAbs - 308))
  else some 0.0

/-- The number that a written one denotes, unless it is too large. -/
def Written.number? (w : Written) : Option Number :=
  let (whole, dropped) := gather 0 w.whole
  let digits := w.fraction.getD []
  let (significand, ignored) := gather whole digits
  let float? := (scale? significand
    ((dropped : Int) - (digits.length - ignored : Nat) + w.exponent.getD 0)).map fun x =>
      Number.float (if w.negative then -x else x)
  if w.fraction.isSome || w.exponent.isSome || dropped ≠ 0 then float?
  else if !w.negative then some (.integer whole)
  else if whole ≠ 0 ∧ whole ≤ 0x8000000000000000 then some (.integer (-(whole : Int)))
  else float?

/-- The text of a floating-point number. -/
def floatText (x : Float) : String :=
  let d := Decimal.shortest x
  let digits := Nat.toDigits 10 d.significand
  let point := (digits.length : Int) + d.exponent
  let sign := if x.toBits.toNat < 0x8000000000000000 then "" else "-"
  let zeros (n : Int) := List.replicate n.toNat '0'
  let body :=
    if 0 ≤ d.exponent ∧ point ≤ 16 then String.ofList (digits ++ zeros d.exponent) ++ ".0"
    else if 0 < point ∧ point ≤ 16 then
      String.ofList (digits.take point.toNat) ++ "." ++ String.ofList (digits.drop point.toNat)
    else if -5 < point ∧ point ≤ 0 then "0." ++ String.ofList (zeros (-point) ++ digits)
    else
      let mantissa := if digits.length = 1 then String.ofList digits
        else String.ofList (digits.take 1) ++ "." ++ String.ofList (digits.drop 1)
      mantissa ++ (if 0 < point then "e+" else "e-") ++ decimal (point - 1).natAbs
  sign ++ body

end Json

/-- A JSON value. -/
inductive Json where
  | null
  | bool (b : Bool)
  | number (n : Json.Number)
  | string (s : String)
  | array (items : List Json)
  | object (members : List (String × Json))

end ErrorQuery
