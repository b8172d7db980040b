import Wiring.Fragment
import Wiring.Model
import Wiring.Text.Basic
import Wiring.Text.Search

/-!
# Inspecting generated sources

Shorthands make a module or a definition from a path such as `com.app.Service`; what
stands before the last dot is the package. The routines and the calls of a module are
found in generated text, and so is the order in which given texts occur.
-/

namespace Wiring.Fixture

/-- The package and the simple name of a path; without a dot the package is
empty. -/
def splitPath (path : String) : String × String :=
  let reversed := path.toList.reverse
  let name := (reversed.takeWhile (· ≠ '.')).reverse
  let package := ((reversed.dropWhile (· ≠ '.')).drop 1).reverse
  (String.ofList package, String.ofList name)

/-- An empty module. -/
def moduleAt (path : String) : Module :=
  let (package, name) := splitPath path
  .named package name

/-- A type registered as a single instance. -/
def classAt (path : String) : Definition :=
  let (package, name) := splitPath path
  .ofType package name { name := "single" }

/-- A top-level function registered as a factory. -/
def functionAt (path : String) : Definition :=
  let (package, name) := splitPath path
  .ofFunction package name { name := "factory" }

/-- A type registered in a named scope. -/
def scopedClassAt (path scope : String) : Definition :=
  let (package, name) := splitPath path
  (Definition.ofType package name { name := "scoped" }).inScope (.named scope)

/-- A module that registers `count` types, numbered from zero. -/
def moduleWithClasses (path : String) (count : Nat) : Module :=
  let (package, _) := splitPath path
  { moduleAt path with
    definitions := (List.range count).map fun index =>
      classAt (package ++ ".C" ++ toString index) }

end Wiring.Fixture

namespace Wiring.Inspect

/-- The text between two quotes of the given kind, if it stands between such. -/
def unquote (quote : Char) (chars : List Char) : Option (List Char) :=
  match chars with
  | first :: rest =>
      if first = quote ∧ rest.getLast? = some quote then some rest.dropLast else none
  | [] => none

/-- The text without the blanks around it, without one pair of double or single
quotes, and without the blanks inside those. -/
def normalizeScalar (text : String) : String :=
  let chars := Text.trimChars text.toList
  let inner :=
    match unquote '"' chars with
    | some inner => inner
    | none => (unquote '\'' chars).getD chars
  String.ofList (Text.trimChars inner)

/-- What the signature of a routine starts with, behind its modifier. -/
def signatureStart (field : String) : String := "fun Module." ++ field

/-- The bodies of the routines of a field: behind the brace that opens the
routine, up to the line that closes it. -/
def routineBodies (source field : String) : List String :=
  let parts := Text.splitAll (signatureStart field).toList source.toList
  (parts.drop 1).filterMap fun part =>
    (Text.splitOnce [')', '{'] part).map fun (_, rest) =>
      match Text.splitOnce ['\n', '}'] rest with
      | some (body, _) => String.ofList body
      | none => String.ofList rest

/-- What the call of a routine starts with, on its line. -/
def callStart (field : String) : String := "\t\t\t\t" ++ field

/-- The lines that call routines of a field. -/
def dispatcherCalls (source field : String) : List String :=
  ((Text.lines source.toList).filter fun line =>
    (callStart field).toList.isPrefixOf line).map String.ofList

/-- Where each text first occurs, in bytes; nothing where one does not occur. -/
def positions (source : String) (needles : List String) : Option (List Nat) :=
  needles.mapM (Text.findByte source)

/-- Whether every number is larger than the one before it. -/
def isAscending : List Nat → Bool
  | [] => true
  | [_] => true
  | first :: second :: rest => first < second && isAscending (second :: rest)

end Wiring.Inspect
