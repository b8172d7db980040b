import Wiring.Decimal.Binary64

/-!
# The shortest decimal that reads back

The digits of a number are the fewest that still lie in the interval of reals
that round to it; among those of that length the nearest is taken, and of two
equally near the even one. `exponential` and `positional` are the two ways such
digits are written in messages.
-/

namespace Wiring.Decimal

/-- Decimal digits behind a point: `0.d₁d₂… * 10 ^ point`. -/
structure Digits where
  /-- The digits, without a zero at the end. -/
  digits : List Char
  /-- Where the decimal point stands, counted from the first digit. -/
  point : Int
deriving DecidableEq, Repr, Inhabited

/-- The interval of reals that round to a number, as multiples of `1 / den`. -/
structure RoundingInterval where
  /-- The lower end. -/
  low : Nat
  /-- The number itself. -/
  value : Nat
  /-- The upper end. -/
  high : Nat
  /-- The common denominator. -/
  den : Nat
  /-- Whether the ends belong to the interval. -/
  isClosed : Bool

namespace RoundingInterval

/-- The interval of a number other than zero. Below a power of two the grid is
twice as fine, so the lower end is nearer there. -/
def ofBinary64 (x : Binary64) : RoundingInterval :=
  let below := if x.significand = hiddenBit ∧ -1074 < x.exponent then 1 else 2
  let exponent := x.exponent - 2
  let factor := if 0 ≤ exponent then Nat.pow 2 exponent.toNat else 1
  let den := if 0 ≤ exponent then 1 else Nat.pow 2 (-exponent).toNat
  { low := (4 * x.significand - below) * factor
    value := 4 * x.significand * factor
    high := (4 * x.significand + 2) * factor
    den
    isClosed := x.significand % 2 = 0 }

/-- How many zeros follow the point in the decimal of `num / den`, up to `fuel`. -/
def zerosAfterPoint : Nat → Nat → Nat → Nat
  | 0, _, _ => 0
  | fuel + 1, num, den =>
      if den ≤ num * 10 then 0 else zerosAfterPoint fuel (num * 10) den + 1

/-- Where the decimal point of the number stands. -/
def point (i : RoundingInterval) : Int :=
  if i.den ≤ i.value then (Nat.toDigits 10 (i.value / i.den)).length
  else -(zerosAfterPoint 400 i.value i.den : Int)

/-- The multiple of `10 ^ scale` that is nearest to the number, if one of the
two around it lies in the interval. -/
def onGrid (i : RoundingInterval) (scale : Int) : Option Nat :=
  let factor := if 0 ≤ scale then 1 else Nat.pow 10 (-scale).toNat
  let step := if 0 ≤ scale then i.den * Nat.pow 10 scale.toNat else i.den
  let isInside (multiple : Nat) : Bool :=
    if i.isClosed then i.low * factor ≤ multiple * step && multiple * step ≤ i.high * factor
    else i.low * factor < multiple * step && multiple * step < i.high * factor
  let below := i.value * factor / step
  let toBelow := i.value * factor - below * step
  let toAbove := (below + 1) * step - i.value * factor
  match isInside below, isInside (below + 1) with
  | true, true =>
      if toBelow < toAbove ∨ (toBelow = toAbove ∧ below % 2 = 0) then some below
      else some (below + 1)
  | true, false => some below
  | false, true => some (below + 1)
  | false, false => none

/-- Tries grids of more and more digits; the first one with a hit wins. -/
def search (i : RoundingInterval) (point : Int) : Nat → Nat → Nat × Int
  | 0, _ => (i.value / i.den, 0)
  | fuel + 1, count =>
      let scale := point - count
      match i.onGrid scale with
      | some multiple => (multiple, scale)
      | none => search i point fuel (count + 1)

end RoundingInterval

/-- The fewest digits that read back as the magnitude of `x`. -/
def shortest (x : Binary64) : Digits :=
  if x.significand = 0 then ⟨['0'], 1⟩
  else
    let interval := RoundingInterval.ofBinary64 x
    let (multiple, scale) := interval.search interval.point 17 1
    let digits := Nat.toDigits 10 multiple
    { digits := (digits.reverse.dropWhile (· = '0')).reverse
      point := scale + digits.length }

/-- Digits written with a point; the fraction is left out where it is zero and
`wholeEnding` is put instead. -/
def Digits.positional (d : Digits) (wholeEnding : List Char) : List Char :=
  let count : Int := d.digits.length
  if d.point ≤ 0 then
    '0' :: '.' :: (List.replicate (-d.point).toNat '0' ++ d.digits)
  else if count ≤ d.point then
    d.digits ++ List.replicate (d.point - count).toNat '0' ++ wholeEnding
  else d.digits.take d.point.toNat ++ '.' :: d.digits.drop d.point.toNat

/-- Digits written with one place before the point and a power of ten. -/
def Digits.exponential (d : Digits) : List Char :=
  let power := d.point - 1
  let mantissa :=
    match d.digits with
    | first :: second :: rest => first :: '.' :: second :: rest
    | digits => digits
  let sign := if power < 0 then '-' else '+'
  mantissa ++ 'e' :: sign :: Nat.toDigits 10 power.natAbs

/-- The minus sign of a number, if it has one. -/
def signChars (isNegative : Bool) : List Char :=
  if isNegative then ['-'] else []

/-- The number with a point always shown: positional from 10^-5 up to below
10^16, else exponential. -/
def Binary64.pointText (x : Binary64) : String :=
  let d := shortest x
  let body :=
    if -5 < d.point ∧ d.point ≤ 16 then d.positional ['.', '0'] else d.exponential
  String.ofList (signChars x.isNegative ++ body)

/-- The number in full positional form, whole numbers without a point. -/
def Extended.plainText : Extended → String
  | .finite x => String.ofList (signChars x.isNegative ++ (shortest x).positional [])
  | .infinite isNegative => if isNegative then "-inf" else "inf"
  | .nan => "NaN"

end Wiring.Decimal
