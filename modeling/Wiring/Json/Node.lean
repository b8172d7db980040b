import Wiring.Json.Numeral
import Wiring.Text.Basic

/-!
# A JSON text as far as it is spelled

`Node.scan` splits a text into nodes without judging it: whatever breaks off or
cannot be read becomes a part of the node that holds it. Which break counts as
which fault depends on what the reader expects at that place, so the judgement
is left to the readers of nodes. Nothing after a break matters to any reader.

Nodes keep the characters that follow their parts, for a reader that refuses a
text has to tell where it stands.
-/

namespace Wiring.Json

/-! ## Quoted texts -/

/-- One character of a quoted text. -/
inductive TextUnit where
  /-- A character that stands for itself or is written by a short escape. -/
  | char (c : Char)
  /-- A 16-bit unit written by its four hexadecimal digits, and what follows them. -/
  | code (unit : Nat) (rest : List Char)
deriving DecidableEq, Repr, Inhabited

/-- How a quoted text ends. -/
inductive TextEnd where
  /-- By its closing quote, in front of the given characters. -/
  | closed (rest : List Char)
  /-- By the end of the text. -/
  | cutOff
  /-- By a control character, the first one given. -/
  | control (rest : List Char)
  /-- By an escape of an unknown letter, the first character given. -/
  | badEscape (rest : List Char)
  /-- By an escape whose digits, the first characters given, are not hexadecimal. -/
  | badDigits (rest : List Char)
deriving DecidableEq, Repr, Inhabited

/-- What follows a quoted text. -/
def TextEnd.rest : TextEnd → List Char
  | closed rest => rest
  | cutOff | control _ | badEscape _ | badDigits _ => []

/-- A quoted text behind its opening quote. -/
structure QuotedText where
  /-- The characters up to the end or the break. -/
  units : List TextUnit
  /-- How it ends. -/
  ending : TextEnd
deriving DecidableEq, Repr, Inhabited

namespace QuotedText

/-- The text with one more character in front. -/
def cons (unit : TextUnit) (text : QuotedText) : QuotedText :=
  { text with units := unit :: text.units }

/-- What follows the text. -/
def rest (text : QuotedText) : List Char := text.ending.rest

end QuotedText

/-- Where the scan of a quoted text stands. -/
inductive TextState where
  /-- Between two characters. -/
  | plain
  /-- Behind a backslash. -/
  | escape
  /-- With hexadecimal digits to come, the value of those that came, and the
  characters from the first digit on. -/
  | hex (missing value : Nat) (digits : List Char)

/-- What a short escape stands for. -/
def shortEscape? : Char → Option Char
  | '"' => some '"'
  | '\\' => some '\\'
  | '/' => some '/'
  | 'b' => some '\x08'
  | 'f' => some '\x0c'
  | 'n' => some '\n'
  | 'r' => some '\r'
  | 't' => some '\t'
  | _ => none

/-- Whether at least `count` bytes of text are left. -/
def hasBytes (count : Nat) (chars : List Char) : Bool :=
  count ≤ Text.byteCount (chars.take count)

/-- Scans a quoted text. -/
def scanText : TextState → List Char → QuotedText
  | _, [] => ⟨[], .cutOff⟩
  | .plain, c :: rest =>
      if c = '"' then ⟨[], .closed rest⟩
      else if c = '\\' then scanText .escape rest
      else if c.toNat < 0x20 then ⟨[], .control (c :: rest)⟩
      else (scanText .plain rest).cons (.char c)
  | .escape, c :: rest =>
      if c = 'u' then
        if hasBytes 4 rest then scanText (.hex 4 0 rest) rest else ⟨[], .cutOff⟩
      else
        match shortEscape? c with
        | some meant => (scanText .plain rest).cons (.char meant)
        | none => ⟨[], .badEscape (c :: rest)⟩
  | .hex missing value digits, c :: rest =>
      match Text.hexValue? c with
      | none => ⟨[], .badDigits digits⟩
      | some digit =>
          let value := value * 16 + digit
          if missing ≤ 1 then (scanText .plain rest).cons (.code value rest)
          else scanText (.hex (missing - 1) value digits) rest

/-! ## Nodes -/

/-- What follows the last element or member that was scanned. -/
inductive Tail where
  /-- The closing bracket, in front of the given characters. -/
  | closed (rest : List Char)
  /-- The end of the text. -/
  | cutOff
  /-- A comma and the closing bracket, the first character given. -/
  | comma (rest : List Char)
  /-- A comma and the end of the text. -/
  | commaCutOff
  /-- Something that is no quoted text where a member name should be. -/
  | badName (rest : List Char)
  /-- Something that is neither a comma nor the closing bracket. -/
  | junk (rest : List Char)
deriving DecidableEq, Repr, Inhabited

/-- What follows the array or object. -/
def Tail.rest : Tail → List Char
  | closed rest => rest
  | cutOff | comma _ | commaCutOff | badName _ | junk _ => []

/-- Where a value starts, and what follows it. -/
structure Extent where
  /-- The characters from the value on. -/
  start : List Char
  /-- The characters behind the value. Where it breaks off, the first of them is
  the one that does not fit. -/
  rest : List Char
deriving DecidableEq, Repr, Inhabited

/-- An element of an array. -/
structure Item (α : Type) where
  /-- The element. -/
  value : α
  /-- Where a look for the end of the array comes to a stop behind the element:
  behind the closing bracket, or behind a comma, or else in front of what follows. -/
  behind : List Char

/-- A member of an object. -/
structure Member (α : Type) where
  name : QuotedText
  /-- Where a look for the end of the object comes to a stop behind the name:
  behind the closing bracket, or else in front of what follows. -/
  behindName : List Char
  value : α
  /-- Where a look for the end of the object comes to a stop behind the value. -/
  behind : List Char

/-- A value as far as the text spells it. -/
inductive Node where
  /-- The word for no value. -/
  | null (extent : Extent)
  /-- A truth value. -/
  | flag (value : Bool) (extent : Extent)
  | number (numeral : Numeral) (extent : Extent)
  /-- A number that breaks off. -/
  | brokenNumber (extent : Extent)
  /-- The word for no value, where it breaks off. -/
  | brokenNull (extent : Extent)
  /-- The word of a truth value, where it breaks off. -/
  | brokenFlag (extent : Extent)
  | text (text : QuotedText)
  /-- An array that starts with the given characters. -/
  | array (start : List Char) (items : List (Item Node)) (tail : Tail)
  /-- An object that starts with the given characters. -/
  | object (start : List Char) (members : List (Member Node)) (tail : Tail)
  /-- No value in front of the given characters, and what is wrong instead. -/
  | missing (fault : Fault) (rest : List Char)
deriving Inhabited

/-- What follows a node. Nothing does where it breaks off. -/
def Node.rest : Node → List Char
  | null extent | flag _ extent | number _ extent => extent.rest
  | brokenNumber _ | brokenNull _ | brokenFlag _ => []
  | text quoted => quoted.rest
  | array _ _ tail | object _ _ tail => tail.rest
  | missing _ _ => []

/-! ## Scanning -/

/-- The blanks that may stand between two tokens. -/
def isSpace (c : Char) : Bool := c = ' ' || c = '\t' || c = '\n' || c = '\r'

/-- The text without the blanks it starts with. -/
def skipSpace (chars : List Char) : List Char := chars.dropWhile isSpace

/-- The text behind blanks and the bracket that closes an object, or in front of
what stands there instead. -/
def skipBrace (chars : List Char) : List Char :=
  match skipSpace chars with
  | '}' :: rest => rest
  | rest => rest

/-- Scans a word whose first letter was read. -/
def scanWord (node broken : Extent → Node) (start : List Char) :
    List Char → List Char → Node
  | [], rest => node { start, rest }
  | _ :: _, [] => broken { start, rest := [] }
  | expected :: more, c :: rest =>
      if c = expected then scanWord node broken start more rest
      else broken { start, rest := c :: rest }

/-- The digits a text starts with, and what follows them. -/
def spanDigits (chars : List Char) : List Char × List Char :=
  (chars.takeWhile Char.isDigit, chars.dropWhile Char.isDigit)

/-- Scans the exponent of a number, if there is one. -/
def scanExponent (start : List Char) (numeral : Numeral) : List Char → Node
  | [] => .number numeral { start, rest := [] }
  | c :: rest =>
      if c = 'e' ∨ c = 'E' then
        let (isNegative, rest) :=
          match rest with
          | '+' :: rest => (false, rest)
          | '-' :: rest => (true, rest)
          | rest => (false, rest)
        let (digits, rest) := spanDigits rest
        if digits.isEmpty then .brokenNumber { start, rest }
        else .number { numeral with exponent := some (isNegative, digits) } { start, rest }
      else .number numeral { start, rest := c :: rest }

/-- Scans the fraction and the exponent of a number, if there are any. -/
def scanFraction (start : List Char) (numeral : Numeral) : List Char → Node
  | '.' :: rest =>
      let (digits, rest) := spanDigits rest
      if digits.isEmpty then .brokenNumber { start, rest }
      else scanExponent start { numeral with fraction := some digits } rest
  | rest => scanExponent start numeral rest

/-- Scans a number behind its sign. A zero in front of other digits breaks it off. -/
def scanNumber (start : List Char) (isNegative : Bool) (chars : List Char) : Node :=
  let (digits, rest) := spanDigits chars
  match digits with
  | [] => .brokenNumber { start, rest }
  | '0' :: digit :: digits => .brokenNumber { start, rest := digit :: (digits ++ rest) }
  | digits => scanFraction start { isNegative, whole := digits } rest

mutual

/-- Scans one value. -/
def scanValue : Nat → List Char → Node
  | 0, _ => .missing .endInValue []
  | fuel + 1, chars =>
      let start := skipSpace chars
      match start with
      | [] => .missing .endInValue []
      | c :: rest =>
          if c = 'n' then scanWord .null .brokenNull start ['u', 'l', 'l'] rest
          else if c = 't' then
            scanWord (.flag true) .brokenFlag start ['r', 'u', 'e'] rest
          else if c = 'f' then
            scanWord (.flag false) .brokenFlag start ['a', 'l', 's', 'e'] rest
          else if c = '-' then scanNumber start true rest
          else if c.isDigit then scanNumber start false start
          else if c = '"' then .text (scanText .plain rest)
          else if c = '[' then
            match skipSpace rest with
            | [] => .array start [] .cutOff
            | ']' :: rest => .array start [] (.closed rest)
            | rest =>
                let (items, tail) := scanItems fuel rest
                .array start items tail
          else if c = '{' then
            match skipSpace rest with
            | [] => .object start [] .cutOff
            | '}' :: rest => .object start [] (.closed rest)
            | '"' :: rest =>
                let (members, tail) := scanMembers fuel rest
                .object start members tail
            | rest => .object start [] (.badName rest)
          else .missing .expectedValue start

/-- Scans the elements of an array, the first of which is due. -/
def scanItems : Nat → List Char → List (Item Node) × Tail
  | 0, _ => ([], .cutOff)
  | fuel + 1, chars =>
      let value := scanValue fuel chars
      match skipSpace value.rest with
      | [] => ([{ value, behind := [] }], .cutOff)
      | ']' :: rest => ([{ value, behind := rest }], .closed rest)
      | ',' :: rest =>
          let behind := skipSpace rest
          match behind with
          | [] => ([{ value, behind }], .commaCutOff)
          | ']' :: _ => ([{ value, behind }], .comma behind)
          | _ =>
              let (items, tail) := scanItems fuel behind
              ({ value, behind } :: items, tail)
      | behind => ([{ value, behind }], .junk behind)

/-- Scans the members of an object behind the opening quote of a name. -/
def scanMembers : Nat → List Char → List (Member Node) × Tail
  | 0, _ => ([], .cutOff)
  | fuel + 1, chars =>
      let name := scanText .plain chars
      let value :=
        match skipSpace name.rest with
        | [] => .missing .endInObject []
        | ':' :: rest => scanValue fuel rest
        | rest => .missing .expectedColon rest
      let member : Member Node :=
        { name, behindName := skipBrace name.rest, value, behind := skipBrace value.rest }
      match skipSpace value.rest with
      | [] => ([member], .cutOff)
      | '}' :: rest => ([member], .closed rest)
      | ',' :: rest =>
          let next := skipSpace rest
          match next with
          | [] => ([member], .commaCutOff)
          | '}' :: _ => ([member], .comma next)
          | '"' :: rest =>
              let (members, tail) := scanMembers fuel rest
              (member :: members, tail)
          | _ => ([member], .badName next)
      | rest => ([member], .junk rest)

end

/-- Scans the value a text starts with. Every step of the scan that uses up fuel
also uses up a character or is followed by one that does. -/
def Node.scan (chars : List Char) : Node := scanValue (2 * chars.length + 1) chars

end Wiring.Json
