import Wiring.Json.Numeral

/-!
# JSON values and their compact text

A value is what a complete node means. The compact text of a value has no blanks
between tokens, keeps the order of members, and escapes in a quoted text only the
quote, the backslash and the control characters.
-/

namespace Wiring.Json

/-- A JSON value. -/
inductive Value where
  /-- No value. -/
  | null
  /-- A truth value. -/
  | flag (value : Bool)
  | number (value : Number)
  | text (value : String)
  | array (items : List Value)
  /-- An object with its members in order. -/
  | object (members : List (String × Value))
deriving Inhabited

/-- A hexadecimal digit, in lower case. -/
def hexDigit (value : Nat) : Char :=
  if value < 10 then Char.ofNat ('0'.toNat + value) else Char.ofNat ('a'.toNat + (value - 10))

/-- How one character is written inside a quoted text. -/
def writeChar (c : Char) : List Char :=
  match c with
  | '"' => ['\\', '"']
  | '\\' => ['\\', '\\']
  | '\x08' => ['\\', 'b']
  | '\t' => ['\\', 't']
  | '\n' => ['\\', 'n']
  | '\x0c' => ['\\', 'f']
  | '\r' => ['\\', 'r']
  | c =>
      if c.toNat < 0x20 then
        ['\\', 'u', '0', '0', hexDigit (c.toNat / 16), hexDigit (c.toNat % 16)]
      else [c]

/-- A quoted text. -/
def writeText (text : String) : List Char :=
  '"' :: (text.toList.flatMap writeChar ++ ['"'])

/-- A whole number in decimal. -/
def writeInteger (value : Int) : List Char :=
  if value < 0 then '-' :: Nat.toDigits 10 value.natAbs else Nat.toDigits 10 value.natAbs

/-- A number. -/
def writeNumber : Number → List Char
  | .integer value => writeInteger value
  | .real value => value.pointText.toList

mutual

/-- The characters of the compact text. -/
def Value.writeChars : Value → List Char
  | .null => ['n', 'u', 'l', 'l']
  | .flag true => ['t', 'r', 'u', 'e']
  | .flag false => ['f', 'a', 'l', 's', 'e']
  | .number value => writeNumber value
  | .text value => writeText value
  | .array [] => ['[', ']']
  | .array (item :: items) => '[' :: (item.writeChars ++ writeItems items)
  | .object [] => ['{', '}']
  | .object ((name, value) :: members) =>
      '{' :: (writeText name ++ ':' :: (value.writeChars ++ writeMembers members))

/-- The further elements of an array and its closing bracket. -/
def writeItems : List Value → List Char
  | [] => [']']
  | item :: items => ',' :: (item.writeChars ++ writeItems items)

/-- The further members of an object and its closing bracket. -/
def writeMembers : List (String × Value) → List Char
  | [] => ['}']
  | (name, value) :: members =>
      ',' :: (writeText name ++ ':' :: (value.writeChars ++ writeMembers members))

end

namespace Value

/-- The compact text of the value. -/
def compact (value : Value) : String := String.ofList value.writeChars

/-- A whole number as a value. -/
def natural (value : Nat) : Value := number (.integer value)

/-- A text where there is one. -/
def optionalText : Option String → Value
  | none => null
  | some value => text value

/-- How a message reports the value. -/
def found : Value → Found
  | null => .nothing
  | flag value => .flag value
  | number value => value.found
  | text value => .text value
  | array _ => .sequence
  | object _ => .map

end Value

end Wiring.Json
