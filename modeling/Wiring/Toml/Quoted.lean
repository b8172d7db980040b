import Wiring.Text.Basic

/-!
# Quoted texts of TOML

A text stands between double quotes, where a backslash starts an escape, or
between single quotes, where every character stands for itself. Between tripled
quotes it may run over several lines; there one or two quotes are part of the
text, also right before the closing ones.

Every reader takes characters and gives what it read together with the
characters behind it, or nothing where the text is not well formed.
-/

namespace Wiring.Toml

/-- Whether a character is a space or a tab. -/
def isGap (c : Char) : Bool := c = ' ' || c = '\t'

/-- Whether a character may stand for itself inside a line. -/
def isPlain (c : Char) : Bool := c = '\t' || (0x20 ≤ c.toNat && c.toNat ≠ 0x7f)

/-- What a short escape stands for. -/
def shortEscape? : Char → Option Char
  | '"' => some '"'
  | '\\' => some '\\'
  | 'b' => some '\x08'
  | 'f' => some '\x0c'
  | 'n' => some '\n'
  | 'r' => some '\r'
  | 't' => some '\t'
  | _ => none

/-- How many hexadecimal digits follow the letter of an escape. -/
def escapeLength? : Char → Option Nat
  | 'u' => some 4
  | 'U' => some 8
  | _ => none

/-- Puts characters in front of a text that was read. -/
def ahead (chars : List Char) : List Char × List Char → List Char × List Char
  | (text, rest) => (chars ++ text, rest)

/-! ## Texts on one line -/

/-- Where the reader of a text stands. -/
inductive TextState where
  /-- Between two characters. -/
  | plain
  /-- Behind a backslash. -/
  | escape
  /-- With hexadecimal digits to come and the value of those that came. -/
  | code (missing value : Nat)
deriving DecidableEq, Repr

/-- One character of an escape: where the reader stands next, and what it adds. -/
def escapeStep : TextState → Char → Option (TextState × List Char)
  | .plain, _ => none
  | .escape, c =>
      match shortEscape? c, escapeLength? c with
      | some meant, _ => some (.plain, [meant])
      | none, some length => some (.code length 0, [])
      | none, none => none
  | .code missing value, c => do
      let value := value * 16 + (← Text.hexValue? c)
      if missing ≤ 1 then pure (.plain, [← Text.charOfCode? value])
      else pure (.code (missing - 1) value, [])

/-- Reads a text with escapes behind its opening quote. -/
def readEscaped : TextState → List Char → Option (List Char × List Char)
  | _, [] => none
  | .plain, c :: rest =>
      if c = '"' then some ([], rest)
      else if c = '\\' then readEscaped .escape rest
      else if isPlain c then (readEscaped .plain rest).map (ahead [c])
      else none
  | state, c :: rest => do
      let (state, added) ← escapeStep state c
      (readEscaped state rest).map (ahead added)

/-- Reads a text without escapes behind its opening quote. -/
def readLiteral : List Char → Option (List Char × List Char)
  | [] => none
  | c :: rest =>
      if c = '\'' then some ([], rest)
      else if isPlain c then (readLiteral rest).map (ahead [c])
      else none

/-! ## Texts over several lines -/

/-- Where the reader of a text over several lines stands. -/
inductive BlockState where
  /-- Behind so many quotes in a row. -/
  | plain (quotes : Nat)
  /-- Behind a carriage return, which a line feed must follow. -/
  | newline
  /-- Inside an escape. -/
  | escape (state : TextState)
  /-- Behind a backslash and spaces, which a line end must follow. -/
  | lineEnd
  /-- Behind a backslash, spaces and a carriage return. -/
  | foldNewline
  /-- Inside the blanks that a backslash at the end of a line removes. -/
  | fold
deriving DecidableEq, Repr

/-- A character that is no quote, outside of escapes. -/
def plainStep (hasEscapes : Bool) (c : Char) : Option (BlockState × List Char) :=
  if c = '\\' ∧ hasEscapes then some (.escape .escape, [])
  else if c = '\n' then some (.plain 0, ['\n'])
  else if c = '\r' then some (.newline, [])
  else if isPlain c then some (.plain 0, [c])
  else none

/-- A character where a backslash may yet remove a line end. -/
def lineEndStep (c : Char) : Option (BlockState × List Char) :=
  if isGap c then some (.lineEnd, [])
  else if c = '\n' then some (.fold, [])
  else if c = '\r' then some (.foldNewline, [])
  else none

/-- One character: where the reader stands next, and what it adds. Quotes are
added once it is clear that they do not close the text. -/
def blockStep (quote : Char) (hasEscapes : Bool) :
    BlockState → Char → Option (BlockState × List Char)
  | .plain quotes, c =>
      if c = quote then some (.plain (quotes + 1), [])
      else (plainStep hasEscapes c).map fun (state, added) =>
        (state, List.replicate quotes quote ++ added)
  | .newline, c => if c = '\n' then some (.plain 0, ['\n']) else none
  | .escape .escape, c =>
      match lineEndStep c with
      | some next => some next
      | none => (escapeStep .escape c).map fun (state, added) => (afterEscape state, added)
  | .escape state, c =>
      (escapeStep state c).map fun (state, added) => (afterEscape state, added)
  | .lineEnd, c => lineEndStep c
  | .foldNewline, c => if c = '\n' then some (.fold, []) else none
  | .fold, c =>
      if isGap c ∨ c = '\n' then some (.fold, [])
      else if c = '\r' then some (.foldNewline, [])
      else if c = quote then some (.plain 1, [])
      else plainStep hasEscapes c
where
  /-- An escape that is complete ends the stay in it. -/
  afterEscape : TextState → BlockState
    | .plain => .plain 0
    | state => .escape state

/-- The end of a text behind a row of quotes: three close it, and up to two before
them belong to it. -/
def endBlock (quote : Char) (quotes : Nat) (rest : List Char) :
    Option (List Char × List Char) :=
  if quotes ≤ 5 then some (List.replicate (quotes - 3) quote, rest) else none

/-- Reads a text over several lines behind its opening quotes. -/
def readBlock (quote : Char) (hasEscapes : Bool) :
    BlockState → List Char → Option (List Char × List Char)
  | .plain quotes, [] => if 3 ≤ quotes then endBlock quote quotes [] else none
  | _, [] => none
  | state, c :: rest =>
      match state with
      | .plain quotes =>
          if 3 ≤ quotes ∧ c ≠ quote then endBlock quote quotes (c :: rest) else do
            let (state, added) ← blockStep quote hasEscapes state c
            (readBlock quote hasEscapes state rest).map (ahead added)
      | state => do
          let (state, added) ← blockStep quote hasEscapes state c
          (readBlock quote hasEscapes state rest).map (ahead added)

/-- The characters without a line end at the front. -/
def dropNewline : List Char → List Char
  | '\n' :: rest => rest
  | '\r' :: '\n' :: rest => rest
  | chars => chars

/-- Reads a text with its quotes; a line end right behind opening triple quotes is
no part of it. -/
def readText : List Char → Option (List Char × List Char)
  | '"' :: '"' :: '"' :: rest => readBlock '"' true (.plain 0) (dropNewline rest)
  | '\'' :: '\'' :: '\'' :: rest => readBlock '\'' false (.plain 0) (dropNewline rest)
  | chars => readInline chars
where
  /-- Reads a text on one line with its quotes. -/
  readInline : List Char → Option (List Char × List Char)
    | '"' :: rest => readEscaped .plain rest
    | '\'' :: rest => readLiteral rest
    | _ => none

end Wiring.Toml
