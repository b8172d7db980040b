/-!
# Binary64 numbers as exact integers

A finite binary64 number is a significand below 2^53 times a power of two, with
a sign. All arithmetic here is exact on natural numbers followed by one rounding
to nearest, where a half goes to the even neighbour.
-/

namespace Wiring.Decimal

/-- The natural number nearest to `num / den`; a half goes to the even neighbour. -/
def roundHalfEven (num den : Nat) : Nat :=
  let quotient := num / den
  let rest := num % den
  if 2 * rest < den then quotient
  else if den < 2 * rest then quotient + 1
  else quotient + quotient % 2

/-- The least significand of 53 bits. -/
def hiddenBit : Nat := 4503599627370496

/-- A finite binary64 number: the significand times two to the exponent. -/
structure Binary64 where
  /-- Whether the number carries a minus sign; zero may carry one too. -/
  isNegative : Bool
  /-- The significand, below 2^53. -/
  significand : Nat
  /-- The exponent of two, from -1074 to 971. -/
  exponent : Int
deriving DecidableEq, Repr, Inhabited

namespace Binary64

/-- Zero with a sign. -/
def zero (isNegative : Bool) : Binary64 := ⟨isNegative, 0, 0⟩

/-- The fraction `num / den / 2 ^ exponent`. -/
def scaled (num den : Nat) (exponent : Int) : Nat × Nat :=
  if 0 ≤ exponent then (num, den * Nat.pow 2 exponent.toNat)
  else (num * Nat.pow 2 (-exponent).toNat, den)

/-- The exponent at which `num / den` has a significand of 53 bits, but never
below that of the smallest numbers. -/
def exponentFor (num den : Nat) : Int :=
  let guess : Int := num.log2 - den.log2 - 52
  let (n, d) := scaled num den guess
  let exponent := if n < d * hiddenBit then guess - 1 else guess
  if exponent < -1074 then -1074 else exponent

/-- The number nearest to `num / den`, or nothing where that lies beyond the
largest finite number. -/
def ofRatio (isNegative : Bool) (num den : Nat) : Option Binary64 :=
  if num = 0 then some (zero isNegative)
  else
    let exponent := exponentFor num den
    let (n, d) := scaled num den exponent
    let rounded := roundHalfEven n d
    let (significand, exponent) :=
      if rounded = 2 * hiddenBit then (hiddenBit, exponent + 1) else (rounded, exponent)
    if significand = 0 then some (zero isNegative)
    else if 971 < exponent then none
    else some ⟨isNegative, significand, exponent⟩

/-- The magnitude as a fraction. -/
def ratio (x : Binary64) : Nat × Nat :=
  if 0 ≤ x.exponent then (x.significand * Nat.pow 2 x.exponent.toNat, 1)
  else (x.significand, Nat.pow 2 (-x.exponent).toNat)

/-- The number nearest to ten to the power `k`; exact up to `k = 22`, finite up
to `k = 308`. -/
def powerOfTen (k : Nat) : Binary64 := (ofRatio false (Nat.pow 10 k) 1).getD (zero false)

/-- The rounded product; nothing where it overflows. -/
def mul (x y : Binary64) : Option Binary64 :=
  let (a, b) := x.ratio
  let (c, d) := y.ratio
  ofRatio (x.isNegative != y.isNegative) (a * c) (b * d)

/-- The rounded quotient by a number other than zero; nothing where it overflows. -/
def div (x y : Binary64) : Option Binary64 :=
  let (a, b) := x.ratio
  let (c, d) := y.ratio
  ofRatio (x.isNegative != y.isNegative) (a * d) (b * c)

/-- The number nearest to `coefficient * 10 ^ exponent`, or nothing where that
overflows. Exponents far outside the range are settled without computing the
power. -/
def ofDecimal (isNegative : Bool) (coefficient : Nat) (exponent : Int) : Option Binary64 :=
  let magnitude : Int := exponent + (Nat.toDigits 10 coefficient).length
  if coefficient = 0 ∨ magnitude < -330 then some (zero isNegative)
  else if 310 < magnitude then none
  else if 0 ≤ exponent then ofRatio isNegative (coefficient * Nat.pow 10 exponent.toNat) 1
  else ofRatio isNegative coefficient (Nat.pow 10 (-exponent).toNat)

end Binary64

/-- A binary64 number, an infinity, or no number. -/
inductive Extended where
  /-- A finite number. -/
  | finite (value : Binary64)
  /-- The infinity of a sign. -/
  | infinite (isNegative : Bool)
  /-- Not a number. -/
  | nan
deriving DecidableEq, Repr, Inhabited

/-- The number nearest to `coefficient * 10 ^ exponent`; an infinity where that
overflows. -/
def Extended.ofDecimal (isNegative : Bool) (coefficient : Nat) (exponent : Int) : Extended :=
  match Binary64.ofDecimal isNegative coefficient exponent with
  | some value => .finite value
  | none => .infinite isNegative

end Wiring.Decimal
