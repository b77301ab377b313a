/-!
# The shortest decimal of a binary floating-point number

A finite binary64 number is an integer times a power of two, and every real number closer to it
than to its neighbours reads back as the same number.  The shortest decimal is found on the
grids of one, two and up to seventeen significant digits: of the first grid with a point in
that interval, the point nearest to the number, and of two equally near the one with an even
last digit.  All arithmetic is exact.
-/

set_option autoImplicit false

namespace ErrorQuery.Decimal

/-- A decimal number, `significand` times ten to the `exponent`. -/
structure Scaled where
  significand : Nat
  exponent : Int
  deriving DecidableEq, Repr

/-- The interval of real numbers that read back as a positive binary number, and the number
itself, all three over the common denominator `den`. -/
structure Interval where
  low : Nat
  value : Nat
  high : Nat
  den : Nat
  /-- Whether the ends belong to the interval. -/
  closed : Bool
  deriving DecidableEq, Repr

/-- The interval of the number `m` times two to the `q`; below the least mantissa of its binade
the neighbours are half as far apart. -/
def Interval.ofBinary (m : Nat) (q : Int) (narrow : Bool) : Interval :=
  let up := Nat.pow 2 (q - 2).toNat
  let den := Nat.pow 2 (2 - q).toNat
  ⟨(4 * m - (if narrow then 1 else 2)) * up, 4 * m * up, (4 * m + 2) * up, den, m % 2 == 0⟩

/-- Whether the decimal `digits` times ten to the `exponent` lies in the interval. -/
def Interval.contains (i : Interval) (digits : Nat) (exponent : Int) : Bool :=
  let point := digits * Nat.pow 10 exponent.toNat * i.den
  let scale := Nat.pow 10 (-exponent).toNat
  if i.closed then decide (i.low * scale ≤ point) && decide (point ≤ i.high * scale)
  else decide (i.low * scale < point) && decide (point < i.high * scale)

/-- The number of digits before the point, or minus the number of zeros behind it. -/
def Interval.magnitude (i : Interval) : Int :=
  if i.den ≤ i.value then ((Nat.toDigits 10 (i.value / i.den)).length : Int)
  else -(((List.range 400).findIdx fun z => decide (i.den ≤ i.value * Nat.pow 10 (z + 1)) : Nat) : Int)

/-- The point of the grid with the given number of significant digits that lies in the interval
and is nearest to the number; halfway between two points the even one counts as nearer. -/
def Interval.nearest? (i : Interval) (count : Nat) : Option Scaled :=
  let exponent := i.magnitude - count
  let num := i.value * Nat.pow 10 (-exponent).toNat
  let den := i.den * Nat.pow 10 exponent.toNat
  let below := num / den
  let lower := i.contains below exponent
  let upper := i.contains (below + 1) exponent
  if lower && upper then
    let twice := 2 * (num % den)
    some ⟨if twice < den ∨ (twice = den ∧ below % 2 = 0) then below else below + 1, exponent⟩
  else if lower then some ⟨below, exponent⟩
  else if upper then some ⟨below + 1, exponent⟩
  else none

/-- Takes zeros off the end of a significand, at most as many as the first argument says. -/
def Scaled.normalize : Nat → Scaled → Scaled
  | 0, d => d
  | fuel + 1, d =>
      if d.significand ≠ 0 ∧ d.significand % 10 = 0 then
        normalize fuel ⟨d.significand / 10, d.exponent + 1⟩
      else d

/-- The shortest decimal that reads back as a finite number, whose sign is left aside. -/
def shortest (x : Float) : Scaled :=
  let bits := x.toBits.toNat
  let biased : Nat := bits / 0x10000000000000 % 0x800
  let low : Nat := bits % 0x10000000000000
  if biased = 0 ∧ low = 0 then ⟨0, 0⟩
  else
    let interval :=
      if biased = 0 then Interval.ofBinary low (-1074) false
      else Interval.ofBinary (0x10000000000000 + low) ((biased : Int) - 1075) (low == 0 && biased != 1)
    match (List.range 17).findSome? fun n => interval.nearest? (n + 1) with
    | some d => d.normalize 17
    | none => ⟨0, 0⟩

end ErrorQuery.Decimal
