import Wiring.Report
import Wiring.Text.Search

/-!
# Paths

A path is a text whose parts are separated by slashes. Empty parts say nothing; a
single dot stays where it is, and two dots lead to the directory above. What the
parts lead to depends on a disk; the functions here only look at the text.
-/

namespace Wiring.Path

/-- The separator of parts. -/
def separator : Char := '/'

/-- Stays in a directory. -/
def here : String := "."

/-- Leads to the directory above. -/
def above : String := ".."

/-- The longest part that a directory can hold, in bytes. -/
def longestPart : Nat := 255

/-- The shortest path that is too long, in bytes. -/
def tooLong : Nat := 4096

/-- The pieces between the separators, empty ones included. -/
def pieces (path : String) : List String :=
  (Text.splitAll [separator] path.toList).map String.ofList

/-- Whether the path starts at the root. -/
def isAbsolute (path : String) : Bool := path.toList.head? = some separator

/-- Whether the path ends in a separator and so can only name a directory. -/
def namesDirectory (path : String) : Bool := path.toList.getLast? = some separator

/-- The pieces that say something. -/
def parts (path : String) : List String := (pieces path).filter fun piece => piece ≠ ""

/-- The pieces that say something, with a dot for a separator at the end: where that is
followed there has to be a directory. -/
def stages (path : String) : List String :=
  if namesDirectory path then parts path ++ [here] else parts path

/-- Whether a piece neither names anything nor leads anywhere. -/
def isIdle (piece : String) : Bool := piece = "" || piece = here

/-- The parts that lead somewhere. -/
def steps (path : String) : List String := (pieces path).filter fun piece => !isIdle piece

/-- A text with a character of code zero cannot be a path. -/
def hasZero (path : String) : Bool := path.toList.any (· = '\x00')

/-- The last part that leads somewhere, unless it leads upwards. -/
def fileName? (path : String) : Option String :=
  match (steps path).getLast? with
  | some step => if step = above then none else some step
  | none => none

/-- Drops idle pieces at the end. -/
def dropIdleEnd (pieces : List String) : List String :=
  (pieces.reverse.dropWhile isIdle).reverse

/-- The pieces as one text. -/
def join (pieces : List String) : String := "/".intercalate pieces

/-- The pieces without the last part that leads somewhere and without what is
idle before it. -/
def dropLastStep (pieces : List String) : List String :=
  dropIdleEnd (dropIdleEnd pieces).dropLast

/-- The path without its last part, as it is written. A leading separator or a
leading dot stays. -/
def parent (path : String) : String :=
  match pieces path with
  | first :: rest =>
      if isAbsolute path then "/" ++ join (dropLastStep rest)
      else if first = here && !rest.isEmpty then join (here :: dropLastStep rest)
      else join (dropLastStep (first :: rest))
  | [] => ""

/-- The path of a name below a directory; a name that starts at the root stays as
it is. -/
def append (directory name : String) : String :=
  if isAbsolute name then name
  else if directory.isEmpty || namesDirectory directory then directory ++ name
  else directory ++ "/" ++ name

/-- The path without the separators at its end, unless it consists of them. -/
def dropSeparators (path : String) : String :=
  let chars := path.toList
  match (chars.reverse.dropWhile (· = separator)).reverse with
  | [] => String.ofList (chars.take 1)
  | kept => String.ofList kept

end Wiring.Path
