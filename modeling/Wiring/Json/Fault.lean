import Wiring.Decimal.Shortest
import Wiring.Text.Quoted

/-!
# What can be wrong with a JSON text

A fault is the first problem met while a text is read as some type. It is about
the grammar of the text, about its end coming too early, or about a value that
does not fit the type; `Fault.category` tells which, `Fault.message` gives the
wording.
-/

namespace Wiring.Json

/-- What stands in the text where something else was expected. -/
inductive Found where
  /-- A whole number. -/
  | integer (value : Int)
  /-- A number with a fraction, an exponent or too many digits. -/
  | real (value : Decimal.Binary64)
  | text (value : String)
  /-- A truth value. -/
  | flag (value : Bool)
  /-- The word for no value. -/
  | nothing
  /-- An array. -/
  | sequence
  /-- An object. -/
  | map
  /-- The bare name of a variant that carries a value. -/
  | bareVariant
deriving DecidableEq, Repr, Inhabited

/-- What a type expects. -/
inductive Expected where
  | text
  /-- A text that names a path. -/
  | path
  /-- A truth value. -/
  | flag
  /-- A number above zero that a word can hold. -/
  | capacity
  /-- An array. -/
  | sequence
  /-- No value. -/
  | unit
  | record (name : String)
  /-- A record of a name, written as so many elements. -/
  | recordOf (name : String) (count : Nat)
  /-- The fields of a variant, written as so many elements. -/
  | fieldsOf (union variant : String) (count : Nat)
  /-- No more elements than these. -/
  | elements (count : Nat)
  | variantName
  /-- The number of one of so many variants. -/
  | variantIndex (count : Nat)
  /-- A variant together with its value. -/
  | variantWithValue
  /-- A union whose variant is named by a member of the object. -/
  | taggedUnion (name : String)
deriving DecidableEq, Repr, Inhabited

/-- The first problem met in a text. -/
inductive Fault where
  /-- The text ends where a value should be. -/
  | endInValue
  /-- The text ends inside an object. -/
  | endInObject
  /-- The text ends inside an array. -/
  | endInArray
  /-- The text ends inside a quoted text. -/
  | endInText
  /-- No value starts this way. -/
  | expectedValue
  /-- A word starts like one of the three known words and goes on otherwise. -/
  | expectedWord
  /-- A member name without its colon. -/
  | expectedColon
  /-- Neither a further member nor the end of the object. -/
  | expectedMember
  /-- Neither a further element nor the end of the array. -/
  | expectedElement
  /-- A member name that is no quoted text. -/
  | nameNotText
  /-- A comma before the closing bracket. -/
  | trailingComma
  /-- Something follows where nothing more may stand. -/
  | trailingText
  /-- A number that breaks off or starts with a needless zero. -/
  | invalidNumber
  /-- A number beyond the largest finite one. -/
  | numberOutOfRange
  /-- An escape that the grammar does not know. -/
  | invalidEscape
  /-- The first half of a surrogate pair without an escape after it. -/
  | brokenPair
  /-- Half of a surrogate pair out of place. -/
  | loneSurrogate
  /-- A control character inside a quoted text. -/
  | controlCharacter
  /-- Arrays and objects nested too deeply. -/
  | tooDeep
  /-- A value of another type than the expected one. -/
  | unexpectedType (found : Found) (expected : Expected)
  /-- A value of the right type that is not allowed. -/
  | unexpectedValue (found : Found) (expected : Expected)
  /-- An array of the wrong length. -/
  | wrongLength (length : Nat) (expected : Expected)
  /-- A variant name other than the known ones. -/
  | unknownVariant (name : String) (known : List String)
  /-- A member that has no default is not there. -/
  | missingMember (name : String)
  /-- A member is there twice. -/
  | repeatedMember (name : String)
deriving DecidableEq, Repr, Inhabited

/-- The three kinds of faults. -/
inductive Category where
  /-- The text breaks the grammar. -/
  | grammar
  /-- The text ends too early. -/
  | ended
  /-- A value does not fit its type. -/
  | data
deriving DecidableEq, Repr, Inhabited

/-- The wording for a found value. -/
def Found.message : Found → String
  | integer value => "integer `" ++ toString value ++ "`"
  | real value => "floating point `" ++ value.pointText ++ "`"
  | text value => "string " ++ Text.quoted value
  | flag value => "boolean `" ++ toString value ++ "`"
  | nothing => "null"
  | sequence => "sequence"
  | map => "map"
  | bareVariant => "unit variant"

/-- A count of elements; only a single one is in the singular. -/
def elementCount (count : Nat) : String :=
  if count = 1 then "1 element" else s!"{count} elements"

/-- The wording for an expectation. -/
def Expected.message : Expected → String
  | text => "a string"
  | path => "a UTF-8 path string"
  | flag => "a boolean"
  | capacity => "a nonzero usize"
  | sequence => "a sequence"
  | unit => "unit"
  | record name => s!"struct {name}"
  | recordOf name count => s!"struct {name} with {elementCount count}"
  | fieldsOf union variant count =>
      s!"struct variant {union}::{variant} with {elementCount count}"
  | elements count => s!"{elementCount count} in sequence"
  | variantName => "variant identifier"
  | variantIndex count => s!"variant index 0 <= i < {count}"
  | variantWithValue => "newtype variant"
  | taggedUnion name => s!"internally tagged enum {name}"

/-- A list of alternatives; two are joined by "or", more are listed. -/
def alternatives (names : List String) : String :=
  match names.map fun name => "`" ++ name ++ "`" with
  | [first, second] => "expected " ++ first ++ " or " ++ second
  | many => "expected one of " ++ ", ".intercalate many

namespace Fault

/-- The kind of a fault. -/
def category : Fault → Category
  | endInValue | endInObject | endInArray | endInText => .ended
  | unexpectedType .. | unexpectedValue .. | wrongLength .. | unknownVariant ..
  | missingMember .. | repeatedMember .. => .data
  | _ => .grammar

/-- The wording of a fault. -/
def message : Fault → String
  | endInValue => "EOF while parsing a value"
  | endInObject => "EOF while parsing an object"
  | endInArray => "EOF while parsing a list"
  | endInText => "EOF while parsing a string"
  | expectedValue => "expected value"
  | expectedWord => "expected ident"
  | expectedColon => "expected `:`"
  | expectedMember => "expected `,` or `\x7d`"
  | expectedElement => "expected `,` or `]`"
  | nameNotText => "key must be a string"
  | trailingComma => "trailing comma"
  | trailingText => "trailing characters"
  | invalidNumber => "invalid number"
  | numberOutOfRange => "number out of range"
  | invalidEscape => "invalid escape"
  | brokenPair => "unexpected end of hex escape"
  | loneSurrogate => "lone leading surrogate in hex escape"
  | controlCharacter =>
      "control character (\\u0000-\\u001F) found while parsing a string"
  | tooDeep => "recursion limit exceeded"
  | unexpectedType found expected =>
      s!"invalid type: {found.message}, expected {expected.message}"
  | unexpectedValue found expected =>
      s!"invalid value: {found.message}, expected {expected.message}"
  | wrongLength length expected =>
      s!"invalid length {length}, expected {expected.message}"
  | unknownVariant name known => "unknown variant `" ++ name ++ "`, " ++ alternatives known
  | missingMember name => "missing field `" ++ name ++ "`"
  | repeatedMember name => "duplicate field `" ++ name ++ "`"

end Fault

end Wiring.Json
