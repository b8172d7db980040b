import Wiring.Decimal.Spelling
import Wiring.Text.Basic
import Wiring.Toml.Value

/-!
# Numbers and moments of TOML

A number may have underscores between digits. Whole numbers fit a 64-bit word with
a sign. A moment is a date, a time, or both, and then an offset may follow; its
parts must lie in the calendar.
-/

namespace Wiring.Toml

open Decimal (Spelling Extended)

/-! ## Numbers -/

/-- Reads digits, of which single underscores may stand between two. With the flag
set, a digit must come next. -/
def readDigits (base : Nat) : Bool → List Char → Option (List Char × List Char)
  | needed, [] => if needed then none else some ([], [])
  | needed, c :: rest =>
      if Text.isDigitOf base c then
        (readDigits base false rest).map fun (digits, rest) => (c :: digits, rest)
      else if needed then none
      else if c = '_' then readDigits base true rest
      else some ([], c :: rest)

/-- Reads the digits of a whole decimal number; only a lone zero starts with a
zero. -/
def readWhole : List Char → Option (List Char × List Char)
  | '0' :: rest => some (['0'], rest)
  | chars => readDigits 10 true chars

/-- The whole number, if it fits a word. -/
def integer? (isNegative : Bool) (magnitude : Nat) : Option Value :=
  if isNegative then
    if magnitude ≤ Word.signedCount then some (.integer (-magnitude)) else none
  else if magnitude < Word.signedCount then some (.integer magnitude)
  else none

/-- Reads a whole number. -/
def readInteger : List Char → Option (Value × List Char)
  | '0' :: 'x' :: rest => readBased 16 rest
  | '0' :: 'o' :: rest => readBased 8 rest
  | '0' :: 'b' :: rest => readBased 2 rest
  | chars => do
      let (isNegative, chars) := Spelling.takeSign chars
      let (digits, rest) ← readWhole chars
      pure (← integer? isNegative (Text.ofDigits 10 digits), rest)
where
  /-- Reads the digits to a base behind its mark. -/
  readBased (base : Nat) (chars : List Char) : Option (Value × List Char) := do
    let (digits, rest) ← readDigits base true chars
    pure (← integer? false (Text.ofDigits base digits), rest)

/-- Reads a power of ten. -/
def readPower : List Char → Option (Int × List Char)
  | mark :: rest =>
      if mark = 'e' ∨ mark = 'E' then do
        let (isNegative, chars) := Spelling.takeSign rest
        let (digits, rest) ← readDigits 10 true chars
        let magnitude : Int := Text.ofDigits 10 digits
        pure (if isNegative then -magnitude else magnitude, rest)
      else none
  | [] => none

/-- A number that does not overflow upwards. -/
def float? (spelling : Spelling) : Option Value :=
  if spelling.value = .infinite false then none else some (.float spelling.value)

/-- Reads a number with a fraction, a power of ten, or both. -/
def readFloat (chars : List Char) : Option (Value × List Char) := do
  let (isNegative, chars) := Spelling.takeSign chars
  let (whole, rest) ← readWhole chars
  match rest with
  | '.' :: rest =>
      let (fraction, rest) ← readDigits 10 true rest
      let (exponent, rest) := (readPower rest).getD (0, rest)
      pure (← float? { isNegative, whole, fraction, exponent }, rest)
  | rest =>
      let (exponent, rest) ← readPower rest
      pure (← float? { isNegative, whole, fraction := [], exponent }, rest)

/-- Reads an infinity or what is no number. -/
def readSpecial (chars : List Char) : Option (Value × List Char) :=
  let (isNegative, chars) := Spelling.takeSign chars
  match chars with
  | 'i' :: 'n' :: 'f' :: rest => some (.float (.infinite isNegative), rest)
  | 'n' :: 'a' :: 'n' :: rest => some (.float .nan, rest)
  | _ => none

/-! ## Moments -/

/-- Reads exactly so many decimal digits. -/
def readFixed (count : Nat) (chars : List Char) : Option (Nat × List Char) :=
  let digits := chars.take count
  if digits.length = count ∧ digits.all Char.isDigit then
    some (Text.ofDigits 10 digits, chars.drop count)
  else none

/-- Takes a given character off the front. -/
def expect (c : Char) : List Char → Option (List Char)
  | first :: rest => if first = c then some rest else none
  | [] => none

/-- Reads two digits that stand for a number from `low` to `high`. -/
def readWithin (low high : Nat) (chars : List Char) : Option (Nat × List Char) := do
  let (value, rest) ← readFixed 2 chars
  if low ≤ value ∧ value ≤ high then pure (value, rest) else none

/-- Whether a year has a leap day. -/
def isLeapYear (year : Nat) : Bool :=
  year % 4 = 0 && (year % 100 ≠ 0 || year % 400 = 0)

/-- The number of days of a month. -/
def daysIn (year month : Nat) : Nat :=
  if month = 2 then if isLeapYear year then 29 else 28
  else if month ∈ [4, 6, 9, 11] then 30
  else 31

/-- Reads a date and gives what follows it. -/
def skipDate (chars : List Char) : Option (List Char) := do
  let (year, rest) ← readFixed 4 chars
  let (month, rest) ← readWithin 1 12 (← expect '-' rest)
  let (_, rest) ← readWithin 1 (daysIn year month) (← expect '-' rest)
  pure rest

/-- The characters behind a fraction of a second, if there is one. -/
def skipFraction : List Char → List Char
  | '.' :: c :: rest => if c.isDigit then rest.dropWhile Char.isDigit else '.' :: c :: rest
  | chars => chars

/-- Reads a time and gives what follows it; a minute may have a leap second. -/
def skipTime (chars : List Char) : Option (List Char) := do
  let (_, rest) ← readWithin 0 23 chars
  let (_, rest) ← readWithin 0 59 (← expect ':' rest)
  let (_, rest) ← readWithin 0 60 (← expect ':' rest)
  pure (skipFraction rest)

/-- Reads an offset and gives what follows it. -/
def skipOffset : List Char → Option (List Char)
  | [] => none
  | c :: rest =>
      if c = 'Z' ∨ c = 'z' then some rest
      else if c = '+' ∨ c = '-' then do
        let (_, rest) ← readWithin 0 23 rest
        let (_, rest) ← readWithin 0 59 (← expect ':' rest)
        pure rest
      else none

/-- Reads the time behind a date, with its offset if it has one. -/
def skipTimeOfDay : List Char → Option (List Char)
  | [] => none
  | c :: rest =>
      if c = 'T' ∨ c = 't' ∨ c = ' ' then do
        let rest ← skipTime rest
        pure ((skipOffset rest).getD rest)
      else none

/-- Reads a date, a time, or both. -/
def readMoment (chars : List Char) : Option (Value × List Char) := do
  let rest ←
    match skipDate chars with
    | some rest => some ((skipTimeOfDay rest).getD rest)
    | none => skipTime chars
  pure (.moment (String.ofList (chars.take (chars.length - rest.length))), rest)

/-! ## Values in one piece -/

/-- Reads a truth value. -/
def readFlag : List Char → Option (Value × List Char)
  | 't' :: 'r' :: 'u' :: 'e' :: rest => some (.flag true, rest)
  | 'f' :: 'a' :: 'l' :: 's' :: 'e' :: rest => some (.flag false, rest)
  | _ => none

/-- Reads a truth value, a moment or a number: whichever of them fits first. -/
def readScalar (chars : List Char) : Option (Value × List Char) :=
  readFlag chars <|> readMoment chars <|> readFloat chars <|> readSpecial chars <|>
    readInteger chars

end Wiring.Toml
