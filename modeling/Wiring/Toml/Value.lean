import Wiring.Decimal.Binary64

/-!
# What a TOML document holds

A document is a table of tables and values. A table remembers how it came about,
because that decides who may still add to it: a table in braces is complete, a
header may be given once, and dotted keys may only add to what dotted keys made.
-/

namespace Wiring.Toml

/-- How a table came about. -/
inductive Origin where
  /-- It was written in braces. -/
  | closed
  /-- By a header of its own. -/
  | headed
  /-- By the header of a table below it. -/
  | implied
  /-- By a dotted key. -/
  | dotted
deriving DecidableEq, Repr, Inhabited

/-- What stands under a key. -/
inductive Value where
  | text (value : String)
  /-- A whole number. -/
  | integer (value : Int)
  /-- A number with a fraction or an exponent, an infinity, or no number. -/
  | float (value : Decimal.Extended)
  /-- A truth value. -/
  | flag (value : Bool)
  /-- A date, a time, or both, as spelled. -/
  | moment (spelling : String)
  | array (values : List Value)
  | table (origin : Origin) (members : List (String × Value))
  /-- The tables that share a header in double brackets. -/
  | tables (elements : List (List (String × Value)))
deriving Inhabited

/-- What a table holds, key by key. -/
abbrev Table := List (String × Value)

namespace Table

/-- Sets what stands under a key. -/
def put (key : String) (value : Value) : Table → Table
  | [] => [(key, value)]
  | (other, held) :: rest =>
      if other = key then (key, value) :: rest else (other, held) :: put key value rest

/-- Adds a value under a key that is not in use. -/
def add (key : String) (value : Value) (table : Table) : Option Table :=
  match table.lookup key with
  | none => some (table.put key value)
  | some _ => none

/-- Where the keys of a header or of an assignment lead through. -/
inductive Way where
  /-- Through the keys of a header: tables that are missing are implied. -/
  | header
  /-- Through a dotted key: tables that are missing are its own, and a table with a
  header is closed to it. -/
  | dottedKey
deriving DecidableEq, Repr

/-- How a table that is missing on the way comes about. -/
def Way.origin : Way → Origin
  | .header => .implied
  | .dottedKey => .dotted

/-- Whether the way may lead through a table. -/
def Way.passes (way : Way) (origin : Origin) : Bool :=
  match way, origin with
  | _, .closed => false
  | .dottedKey, .headed => false
  | _, _ => true

/-- Changes the table that keys lead to; of tables that share a header it is the
last one. The change is told how the table came about. -/
def changeAt (way : Way) (change : Origin → Table → Option Table) :
    List String → Origin → Table → Option Table
  | [], origin, table => change origin table
  | key :: keys, _, table =>
      match table.lookup key with
      | none => do
          let members ← changeAt way change keys way.origin []
          pure (table.put key (.table way.origin members))
      | some (.table origin members) =>
          if way.passes origin then do
            let members ← changeAt way change keys origin members
            pure (table.put key (.table origin members))
          else none
      | some (.tables elements) =>
          match elements.getLast? with
          | some last => do
              let last ← changeAt way change keys .headed last
              pure (table.put key (.tables (elements.dropLast ++ [last])))
          | none => none
      | some _ => none

/-- Adds a value under a key that may be dotted. The tables that the dots lead
through must have come about that way. -/
def assign (keys : List String) (key : String) (value : Value) (table : Table) :
    Option Table :=
  changeAt .dottedKey
    (fun origin members =>
      if keys.isEmpty || origin = .dotted then members.add key value else none)
    keys .headed table

/-- Opens the table of a header: a new one, or one that was only implied. -/
def openTable (key : String) (table : Table) : Option Table :=
  match table.lookup key with
  | none => some (table.put key (.table .headed []))
  | some (.table .implied members) => some (table.put key (.table .headed members))
  | some _ => none

/-- Opens one more table of a header in double brackets. -/
def openElement (key : String) (table : Table) : Option Table :=
  match table.lookup key with
  | none => some (table.put key (.tables [[]]))
  | some (.tables elements) => some (table.put key (.tables (elements ++ [[]])))
  | some _ => none

end Table

/-- One line of a document. -/
inductive Line where
  /-- A header in brackets, or in double brackets. -/
  | header (isElement : Bool) (keys : List String) (key : String)
  | assignment (keys : List String) (key : String) (value : Value)
deriving Inhabited

namespace Table

/-- Takes one line to the table and to the keys of the last header. -/
def takeLine : List String × Table → Line → Option (List String × Table)
  | (_, table), .header isElement keys key => do
      let enter := if isElement then openElement key else openTable key
      let table ← changeAt .header (fun _ => enter) keys .headed table
      pure (keys ++ [key], table)
  | (block, table), .assignment keys key value => do
      let table ← changeAt .header (fun _ => assign keys key value) block .headed table
      pure (block, table)

/-- The table that lines make, unless one of them contradicts another. -/
def ofLines (lines : List Line) : Option Table :=
  (lines.foldlM takeLine ([], [])).map Prod.snd

/-- The table in braces that assignments make. -/
def ofAssignments (assignments : List (List String × String × Value)) : Option Table :=
  assignments.foldlM (fun table (keys, key, value) => table.assign keys key value) []

end Table

end Wiring.Toml
