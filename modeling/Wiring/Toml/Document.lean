import Wiring.Toml.Quoted
import Wiring.Toml.Scalar

/-!
# TOML documents

A document is read line by line into headers and assignments, which together make
its table. Lists may run over several lines; tables in braces stay on one. How
deep values nest and how many parts a key has is limited.
-/

namespace Wiring.Toml

/-- How many lists and tables may be open at once, and how many parts a key may
have. -/
def nestingLimit : Nat := 79

/-- The characters without spaces and tabs at the front. -/
def dropGap (chars : List Char) : List Char := chars.dropWhile isGap

/-- The characters without a comment at the front. -/
def dropComment : List Char → List Char
  | '#' :: rest => rest.dropWhile isPlain
  | chars => chars

/-- The characters without gaps, comments and line ends at the front. A carriage
return only counts with a line feed behind it. The flag tells whether a comment is
running. -/
def dropBlank : Bool → List Char → List Char
  | _, [] => []
  | _, '\r' :: '\n' :: rest => dropBlank false rest
  | isComment, c :: rest =>
      if c = '\n' then dropBlank false rest
      else if isComment then if isPlain c then dropBlank true rest else c :: rest
      else if isGap c then dropBlank false rest
      else if c = '#' then dropBlank true rest
      else c :: rest

/-! ## Keys -/

/-- Whether a character may stand in a key without quotes. -/
def isKeyChar (c : Char) : Bool := c.isAlphanum || c = '_' || c = '-'

/-- Reads one part of a key. -/
def readKeyPart (chars : List Char) : Option (String × List Char) :=
  match chars with
  | c :: _ =>
      if c = '"' ∨ c = '\'' then
        (readText.readInline chars).map fun (text, rest) => (String.ofList text, rest)
      else
        match chars.takeWhile isKeyChar with
        | [] => none
        | part => some (String.ofList part, chars.dropWhile isKeyChar)
  | [] => none

/-- Reads the parts of a key with the gaps around them. The first argument is how
many parts there may be; the result is what comes before the last part, and that
part. -/
def readKey : Nat → List Char → Option ((List String × String) × List Char)
  | 0, _ => none
  | room + 1, chars => do
      let (part, rest) ← readKeyPart (dropGap chars)
      match dropGap rest with
      | '.' :: rest =>
          let ((keys, key), rest) ← readKey room rest
          pure ((part :: keys, key), rest)
      | rest => pure (([], part), rest)

/-! ## Values -/

/-- Reads the elements of a list up to its closing bracket. A comma may follow the
last one. The fuel is at least the number of elements. -/
def readElements (read : List Char → Option (Value × List Char)) :
    Nat → List Char → Option (List Value × List Char)
  | 0, _ => none
  | fuel + 1, chars =>
      match dropBlank false chars with
      | ']' :: rest => some ([], rest)
      | chars => do
          let (value, rest) ← read chars
          match dropBlank false rest with
          | ',' :: rest =>
              let (values, rest) ← readElements read fuel rest
              pure (value :: values, rest)
          | ']' :: rest => pure ([value], rest)
          | _ => none

/-- Reads an assignment: a key, an equals sign and a value. -/
def readAssignment (read : List Char → Option (Value × List Char)) (chars : List Char) :
    Option ((List String × String × Value) × List Char) := do
  let ((keys, key), rest) ← readKey nestingLimit chars
  let (value, rest) ← read (dropGap (← expect '=' rest))
  pure ((keys, key, value), rest)

/-- Reads the assignments of a table in braces up to the closing one. No comma may
follow the last one. The fuel is at least their number. -/
def readAssignments (read : List Char → Option (Value × List Char)) :
    Nat → List Char → Option (List (List String × String × Value) × List Char)
  | 0, _ => none
  | fuel + 1, chars => do
      let (assignment, rest) ← readAssignment read chars
      match dropGap rest with
      | ',' :: rest =>
          let (assignments, rest) ← readAssignments read fuel rest
          pure (assignment :: assignments, rest)
      | '\x7d' :: rest => pure ([assignment], rest)
      | _ => none

/-- Reads a table behind its opening brace. -/
def readBraces (read : List Char → Option (Value × List Char)) (chars : List Char) :
    Option (Value × List Char) := do
  let (assignments, rest) ←
    match dropGap chars with
    | '\x7d' :: rest => some ([], rest)
    | _ => readAssignments read (chars.length + 1) chars
  pure (.table .closed (← Table.ofAssignments assignments), rest)

/-- Reads a value in which so many lists and tables may be open at once. -/
def readValue : Nat → List Char → Option (Value × List Char)
  | room, chars =>
      match chars with
      | '[' :: rest =>
          match room with
          | 0 => none
          | room + 1 =>
              (readElements (readValue room) (rest.length + 1) rest).map fun (values, rest) =>
                (.array values, rest)
      | '\x7b' :: rest =>
          match room with
          | 0 => none
          | room + 1 => readBraces (readValue room) rest
      | c :: _ =>
          if c = '"' ∨ c = '\'' then
            (readText chars).map fun (text, rest) => (.text (String.ofList text), rest)
          else readScalar chars
      | [] => none

/-! ## Lines -/

/-- The characters behind the rest of a line: a gap, a comment, and the end of the
line or of the document. -/
def endLine (chars : List Char) : Option (List Char) :=
  match dropComment (dropGap chars) with
  | [] => some []
  | '\n' :: rest => some rest
  | '\r' :: '\n' :: rest => some rest
  | _ => none

/-- Reads a header behind its first bracket. -/
def readHeader (chars : List Char) : Option (Line × List Char) := do
  match chars with
  | '[' :: rest =>
      let ((keys, key), rest) ← readKey nestingLimit rest
      let rest ← expect ']' (← expect ']' rest)
      pure (.header true keys key, ← endLine rest)
  | chars =>
      let ((keys, key), rest) ← readKey nestingLimit chars
      pure (.header false keys key, ← endLine (← expect ']' rest))

/-- Reads a line that is not empty. -/
def readLine (chars : List Char) : Option (Line × List Char) :=
  match chars with
  | '[' :: rest => readHeader rest
  | chars => do
      let ((keys, key, value), rest) ← readAssignment (readValue nestingLimit) chars
      pure (.assignment keys key value, ← endLine rest)

/-- Reads the lines of a document. The fuel is more than the number of
characters. -/
def readLines : Nat → List Char → Option (List Line)
  | 0, _ => none
  | fuel + 1, chars =>
      match dropBlank false chars with
      | [] => some []
      | chars => do
          let (line, rest) ← readLine chars
          pure (line :: (← readLines fuel rest))

/-- The characters without a byte order mark at the front. -/
def dropMark : List Char → List Char
  | '\ufeff' :: rest => rest
  | chars => chars

/-- The table of a document, if it is well formed. -/
def Table.ofText? (text : String) : Option Table := do
  let lines ← readLines (text.length + 1) (dropMark text.toList)
  Table.ofLines lines

end Wiring.Toml
