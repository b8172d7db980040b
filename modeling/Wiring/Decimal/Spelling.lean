import Wiring.Decimal.Binary64
import Wiring.Text.Basic

/-!
# Numbers spelled in decimals

A number may be spelled with a sign, digits around a point, and a power of ten.
Its value is the binary64 number nearest to what is spelled.
-/

namespace Wiring.Decimal

/-- A number as it is spelled. -/
structure Spelling where
  /-- Whether a minus sign comes first. -/
  isNegative : Bool
  /-- The digits before the point. -/
  whole : List Char
  /-- The digits behind the point. -/
  fraction : List Char
  /-- The power of ten. -/
  exponent : Int
deriving DecidableEq, Repr, Inhabited

namespace Spelling

/-- The number that is spelled. -/
def value (spelling : Spelling) : Extended :=
  .ofDecimal spelling.isNegative (Text.ofDigits 10 (spelling.whole ++ spelling.fraction))
    (spelling.exponent - spelling.fraction.length)

/-- Takes a sign off the front; the result tells whether it is a minus sign. -/
def takeSign : List Char → Bool × List Char
  | '-' :: rest => (true, rest)
  | '+' :: rest => (false, rest)
  | chars => (false, chars)

/-- Reads what follows the mark of a power of ten: a sign and at least one digit,
up to the end. -/
def readExponent (chars : List Char) : Option Int :=
  let (isNegative, digits) := takeSign chars
  if digits.isEmpty || !digits.all Char.isDigit then none
  else
    let magnitude : Int := Text.ofDigits 10 digits
    some (if isNegative then -magnitude else magnitude)

/-- Reads a number that takes up a whole text: an optional sign, digits of which
some may follow a point, and an optional power of ten. At least one digit must be
there. -/
def ofChars? (chars : List Char) : Option Spelling := do
  let (isNegative, chars) := takeSign chars
  let whole := chars.takeWhile Char.isDigit
  let chars := chars.dropWhile Char.isDigit
  let (fraction, chars) :=
    match chars with
    | '.' :: rest => (rest.takeWhile Char.isDigit, rest.dropWhile Char.isDigit)
    | chars => ([], chars)
  if whole.isEmpty && fraction.isEmpty then none
  match chars with
  | [] => some { isNegative, whole, fraction, exponent := 0 }
  | mark :: rest =>
      if mark = 'e' ∨ mark = 'E' then
        some { isNegative, whole, fraction, exponent := ← readExponent rest }
      else none

end Spelling

end Wiring.Decimal
