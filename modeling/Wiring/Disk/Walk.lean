import Wiring.Disk.Basic

/-!
# Following paths

A path is followed part by part. Every part but the last one must lead to a
directory, and where a part is a link the path of the link is followed in its place. A
path may lead anywhere, or it must not leave a directory, and neither must the links.
-/

namespace Wiring.Disk

/-- A directory is required. -/
def requireDirectory (disk : Disk) (location : Location) : Except SystemFault Unit :=
  match disk.get? location with
  | some .directory => .ok ()
  | some (.file ..) | some (.link _) => .error .notDirectory
  | none => .error .notFound

/-- A directory is required in which something may be looked up. -/
def requireSearch (disk : Disk) (location : Location) : Except SystemFault Unit := do
  disk.requireDirectory location
  disk.ask (.search location)

/-- A name must not be too long. -/
def requireName (name : String) : Except SystemFault Unit :=
  if Path.longestPart < name.utf8ByteSize then .error .nameTooLong else .ok ()

/-- What is found below a directory under a name. -/
def look (disk : Disk) (directory : Location) (name : String) :
    Except SystemFault (Option Entry) := do
  disk.requireSearch directory
  requireName name
  pure (disk.get? (name :: directory))

/-! ## Bounds -/

/-- Where a path may lead. -/
inductive Bounds where
  | anywhere
  /-- Not out of a directory. -/
  | within (base : Location)
deriving DecidableEq, Repr

namespace Bounds

/-- The directory above a location. -/
def above (bounds : Bounds) (location : Location) : Except SystemFault Location :=
  match bounds with
  | anywhere => .ok location.tail
  | within base => if location = base then .error .outside else .ok location.tail

/-- Where a path starts that is met in a directory. -/
def start (bounds : Bounds) (directory : Location) (path : String) :
    Except SystemFault Location :=
  if Path.isAbsolute path then
    match bounds with
    | anywhere => .ok []
    | within _ => .error .outside
  else .ok directory

end Bounds

/-! ## Walking -/

/-- How many links are followed on the way. -/
def mostLinks : Nat := 40

/-- Follows parts from a location; `follow` takes over where a link is met. Where
`mayMiss` is set there need be nothing under the last part. -/
def walkParts (disk : Disk) (bounds : Bounds) (mayMiss : Bool)
    (follow : Location → List String → Except SystemFault Location) :
    Location → List String → Except SystemFault Location
  | location, [] => .ok location
  | location, part :: parts => do
      disk.requireSearch location
      if part = Path.here then disk.walkParts bounds mayMiss follow location parts
      else if part = Path.above then
        disk.walkParts bounds mayMiss follow (← bounds.above location) parts
      else
        match ← disk.look location part with
        | some (.link target) =>
            follow (← bounds.start location target) (Path.stages target ++ parts)
        | some .directory | some (.file ..) =>
            disk.walkParts bounds mayMiss follow (part :: location) parts
        | none => if mayMiss ∧ parts = [] then .ok (part :: location) else .error .notFound

/-- Follows parts from a location and so many links. -/
def walkLinks (disk : Disk) (bounds : Bounds) (mayMiss : Bool) :
    Nat → Location → List String → Except SystemFault Location
  | 0 => disk.walkParts bounds mayMiss fun _ _ => .error .tooManyLinks
  | links + 1 => disk.walkParts bounds mayMiss (disk.walkLinks bounds mayMiss links)

/-- Follows parts from a location. -/
def walk (disk : Disk) (bounds : Bounds) (mayMiss : Bool) :
    Location → List String → Except SystemFault Location :=
  disk.walkLinks bounds mayMiss mostLinks

/-! ## Paths from the working directory -/

/-- Where a path starts. -/
def startOf (directory : Location) (path : String) : Location :=
  if Path.isAbsolute path then [] else directory

/-- What makes a text no path at all. -/
def requirePath (path : String) : Except SystemFault Unit :=
  if Path.hasZero path then .error .zeroInName
  else if path.isEmpty then .error .notFound
  else if Path.tooLong ≤ path.utf8ByteSize then .error .nameTooLong
  else .ok ()

/-- What a path leads to from a directory. -/
def resolve (disk : Disk) (directory : Location) (path : String) :
    Except SystemFault Location := do
  requirePath path
  disk.walk .anywhere false (startOf directory path) (Path.stages path)

/-- The directory that a path leads to. -/
def openDirectory (disk : Disk) (directory : Location) (path : String) :
    Except SystemFault Location := do
  let location ← disk.resolve directory path
  disk.requireDirectory location
  disk.ask (.enter location)
  pure location

/-- The content of the file at a location. -/
def read (disk : Disk) (location : Location) : Except SystemFault ByteArray :=
  match disk.get? location with
  | some (.file _ content) => do
      disk.ask (.read location)
      pure content
  | some .directory => .error .isDirectory
  | some (.link _) => .error .tooManyLinks
  | none => .error .notFound

/-- The text in bytes. -/
def decodeText (content : ByteArray) : Except SystemFault String :=
  match String.fromUTF8? content with
  | some text => .ok text
  | none => .error .notText

/-- The text of the file that a path leads to. -/
def readText (disk : Disk) (directory : Location) (path : String) :
    Except SystemFault String := do
  decodeText (← disk.read (← disk.resolve directory path))

/-- Whether a path leads to a file. -/
def isFile (disk : Disk) (directory : Location) (path : String) : Bool :=
  match disk.resolve directory path with
  | .ok location => !disk.isDirectory location
  | .error _ => false

/-! ## Paths within a directory -/

/-- What makes a text no path within a directory. -/
def requirePathWithin (path : String) : Except SystemFault Unit :=
  if Path.hasZero path then .error .invalidArgument
  else if path.isEmpty then .error .notFound
  else if Path.isAbsolute path then .error .outside
  else if Path.tooLong ≤ path.utf8ByteSize then .error .nameTooLong
  else .ok ()

/-- The name that a path ends in, unless it ends in a separator or in dots. -/
def lastName? (path : String) : Option String :=
  match (Path.parts path).getLast? with
  | some part =>
      if part = Path.here ∨ part = Path.above ∨ Path.namesDirectory path then none
      else some part
  | none => none

/-- The directory and the name that a path within `base` leads to; no name stands
for the directory itself. A link under the name is not followed. -/
def locate (disk : Disk) (base : Location) (path : String) :
    Except SystemFault (Location × Option String) := do
  requirePathWithin path
  let parts := Path.parts path
  let before := if (lastName? path).isSome then parts.dropLast else parts
  let directory ← disk.walk (.within base) false base before
  disk.requireDirectory directory
  pure (directory, lastName? path)

/-- What a path within `base` leads to that may name a file; where `mayMiss` is set the
file need not be there. -/
def locateFile (disk : Disk) (base : Location) (mayMiss : Bool) (path : String) :
    Except SystemFault Location := do
  match ← disk.locate base path with
  | (_, some _) => disk.walk (.within base) mayMiss base (Path.parts path)
  | (_, none) => .error .isDirectory

/-- The text of the file that a path within `base` leads to. -/
def readTextWithin (disk : Disk) (base : Location) (path : String) :
    Except SystemFault String := do
  decodeText (← disk.read (← disk.locateFile base false path))

end Wiring.Disk
