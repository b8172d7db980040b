import Wiring.Decimal.Spelling
import Wiring.Settings.Fault
import Wiring.Text.Basic
import Wiring.Text.Search
import Wiring.Toml.Quoted

/-!
# Settings in environment variables

A variable holds a setting when its name starts with `variableStart`; upper and
lower case do not matter. Its value is read as a truth value, a table in braces, a
list in brackets, a text quoted as in TOML, a quoted character or a number; whatever
cannot be read to its end is a text as it stands.
-/

namespace Wiring.Settings

open Decimal (Spelling)

/-! ## Names -/

/-- The parts of a variable's name behind `variableStart`, in lower case; a dot
separates parts, and no part is empty. -/
def nameParts? (fullName : String) : Option (List String) :=
  let name := (Text.trim fullName).toList.map Char.toLower
  let start := variableStart.toList.map Char.toLower
  if start.isPrefixOf name then
    let rest := Text.trimChars (name.drop start.length)
    let parts := Text.splitAll ['.'] rest
    if parts.any List.isEmpty then none else some (parts.map String.ofList)
  else none

/-! ## Values -/

/-- Whether a character is a blank between values. -/
def isGap (c : Char) : Bool :=
  c = ' ' || c = '\t' || c = '\n' || c = '\x0c' || c = '\r'

/-- The characters without blanks at the front. -/
def dropGap (chars : List Char) : List Char := chars.dropWhile isGap

/-- Whether a character ends a bare value. -/
def isBracket (c : Char) : Bool :=
  c = ',' || c = '\x7b' || c = '\x7d' || c = '[' || c = ']'

/-- Whether a character may stand in a bare key. -/
def isKeyChar (c : Char) : Bool := c.isAlphanum || c = '_' || c = '-'

/-- The whole number that a text spells in decimal digits. -/
def natural? (digits : List Char) : Option Nat :=
  if digits.isEmpty || !digits.all Char.isDigit then none else some (Text.ofDigits 10 digits)

/-- What a bare value is: with a point in it a number if it can be one, else a
whole number that fits a word, first without and then with a sign, else a text. -/
def bareValue (chars : List Char) : Found :=
  let real? := if '.' ∈ chars then Spelling.ofChars? chars else none
  match real? with
  | some spelling => .float spelling.value
  | none =>
      let (isNegative, digits) := Spelling.takeSign chars
      match isNegative, natural? digits with
      | false, some value =>
          if value < Word.count then .unsigned value else .text (String.ofList chars)
      | true, some value =>
          if value ≤ Word.signedCount then .signed (-value) else .text (String.ofList chars)
      | _, none => .text (String.ofList chars)

/-- Reads a quoted text behind its opening quote. Of what stands before the first
escape only so many bytes belong to it as there are characters; a text of which
this leaves half a character is not well formed. -/
def readQuoted (chars : List Char) : Option (List Char × List Char) := do
  let (text, rest) ← Toml.readEscaped .plain chars
  let plain := chars.takeWhile fun c => c ≠ '\\' && c ≠ '"'
  match chars.drop plain.length with
  | '\\' :: _ =>
      let kept ← Text.takeBytes? plain.length plain
      pure (kept ++ text.drop plain.length, rest)
  | _ => pure (text, rest)

/-- Reads a key in front of a value. -/
def skipKey (chars : List Char) : Option (List Char) :=
  match chars with
  | '"' :: rest => (readQuoted rest).map Prod.snd
  | chars =>
      if (chars.takeWhile isKeyChar).isEmpty then none else some (chars.dropWhile isKeyChar)

/-- What may hold several values. -/
inductive Holder where
  /-- A list. -/
  | sequence
  /-- A table, where a key and an equals sign stand before each value. -/
  | map
deriving DecidableEq, Repr

/-- The bracket that closes a holder. -/
def Holder.closing : Holder → Char
  | sequence => ']'
  | map => '\x7d'

/-- Reads what stands before a value of a holder. -/
def Holder.skipKey (holder : Holder) (chars : List Char) : Option (List Char) :=
  match holder with
  | sequence => some chars
  | map =>
      match (Settings.skipKey (dropGap chars)).map dropGap with
      | some ('=' :: rest) => some rest
      | _ => none

mutual

/-- Reads a value and the blanks around it. The fuel is more than the number of
characters. -/
def readValue : Nat → List Char → Option (Found × List Char)
  | 0, _ => none
  | fuel + 1, chars => do
      let (found, rest) ←
        match dropGap chars with
        | 't' :: 'r' :: 'u' :: 'e' :: rest => some (.flag true, rest)
        | 'f' :: 'a' :: 'l' :: 's' :: 'e' :: rest => some (.flag false, rest)
        | '\x7b' :: rest => (skipValues .map fuel rest).map fun rest => (.map, rest)
        | '[' :: rest => (skipValues .sequence fuel rest).map fun rest => (.sequence, rest)
        | '"' :: rest =>
            (readQuoted rest).map fun (text, rest) => (.text (String.ofList text), rest)
        | '\'' :: rest =>
            match rest with
            | c :: '\'' :: rest => some (.text (String.singleton c), rest)
            | _ => none
        | chars =>
            some (bareValue (Text.trimChars (chars.takeWhile fun c => !isBracket c)),
              chars.dropWhile fun c => !isBracket c)
      pure (found, dropGap rest)

/-- Reads the values of a holder up to its closing bracket. A comma may follow the
last one. -/
def skipValues (holder : Holder) : Nat → List Char → Option (List Char)
  | 0, _ => none
  | fuel + 1, chars =>
      match chars with
      | [] => none
      | c :: rest =>
          if c = holder.closing then some rest
          else do
            let (_, rest) ← readValue fuel (← holder.skipKey chars)
            match rest with
            | ',' :: rest => skipValues holder fuel rest
            | c :: rest => if c = holder.closing then some rest else none
            | [] => none

end

/-- What the value of a variable supplies. -/
def Found.ofVariable (value : String) : Found :=
  match readValue (2 * value.length + 2) value.toList with
  | some (found, []) => found
  | _ => .text value

/-- The settings that variables supply; of two for one setting the later one
counts. -/
def ofEnvironment (environment : List (String × String)) : List (String × Found) :=
  environment.reverse.filterMap fun (fullName, value) =>
    match nameParts? fullName with
    | some [name] => some (name, .ofVariable value)
    | some (name :: _) => some (name, .map)
    | _ => none

end Wiring.Settings
