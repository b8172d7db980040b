import Wiring.Disk.Walk

/-!
# Changing a disk

Directories are made one by one or with all that leads to them. Within a
directory, files are opened for writing, renamed and removed. A link is followed where a
file is opened, and is taken for itself everywhere else.
-/

namespace Wiring.Disk

/-! ## Making directories -/

/-- Makes the directory that parts lead to; they are given last one first. -/
def makeDirectory (disk : Disk) (start : Location) : List String → Except SystemFault Disk
  | [] => .error .alreadyExists
  | part :: before => do
      let directory ← disk.walk .anywhere false start before.reverse
      disk.requireSearch directory
      if part = Path.here ∨ part = Path.above then .error .alreadyExists
      else
        match ← disk.look directory part with
        | some _ => .error .alreadyExists
        | none => do
            disk.ask (.makeDirectory (part :: directory))
            pure (disk.putDirectory (part :: directory))

/-- Whether parts, given last one first, lead to a directory. -/
def leadsToDirectory (disk : Disk) (start : Location) (parts : List String) : Bool :=
  match disk.walk .anywhere false start parts.reverse with
  | .ok location => disk.isDirectory location
  | .error _ => false

/-- Makes a directory unless it is there. -/
def makeOrKeep (disk : Disk) (start : Location) (parts : List String) :
    Except SystemFault Unit × Disk :=
  match disk.makeDirectory start parts with
  | .ok disk => (.ok (), disk)
  | .error fault =>
      if disk.leadsToDirectory start parts then (.ok (), disk) else (.error fault, disk)

/-- Makes a directory; where it is missing because a directory that leads to it is,
`makeParents` is used first. -/
def makeAfter (makeParents : Disk → Except SystemFault Unit × Disk) (start : Location)
    (parts : List String) (disk : Disk) : Except SystemFault Unit × Disk :=
  match disk.makeDirectory start parts with
  | .error .notFound =>
      match makeParents disk with
      | (.ok (), disk) => disk.makeOrKeep start parts
      | (.error fault, disk) => (.error fault, disk)
  | _ => disk.makeOrKeep start parts

/-- Makes a directory and all that leads to it. -/
def makeDirectories (start : Location) :
    List String → Disk → Except SystemFault Unit × Disk
  | [], disk => (.ok (), disk)
  | part :: before, disk => makeAfter (makeDirectories start before) start (part :: before) disk

/-- Makes the directory that a path leads to and all before it. The path itself is
taken as it is written; idle parts are left out of what leads to it. -/
def makePath (disk : Disk) (directory : Location) (path : String) :
    Except SystemFault Unit × Disk :=
  let start := startOf directory path
  makeAfter (makeDirectories start (Path.steps path).reverse.tail) start
    (Path.parts path).reverse disk

/-- The directory that a path leads to; it is made if it is missing. -/
def ensureDirectory (disk : Disk) (directory : Location) (path : String) :
    Except SystemFault Location × Disk :=
  match disk.openDirectory directory path with
  | .ok location => (.ok location, disk)
  | .error .notFound =>
      match disk.makePath directory path with
      | (.ok (), disk) => (disk.openDirectory directory path, disk)
      | (.error fault, disk) => (.error fault, disk)
  | .error fault => (.error fault, disk)

/-! ## Files within a directory -/

/-- Opens a file for writing: a new one, or an old one without its content. Gives
the number of the file. A link leads to the file. -/
def create (disk : Disk) (base : Location) (path : String) :
    Except SystemFault (Nat × Disk) := do
  let place ← disk.locateFile base true path
  match disk.get? place with
  | some (.file id _) => do
      disk.ask (.replace place)
      pure (id, disk.modify id fun _ => .empty)
  | some .directory => .error .isDirectory
  | some (.link _) => .error .tooManyLinks
  | none => do
      disk.ask (.makeFile place)
      pure (disk.nextId, disk.putFile place .empty)

/-- Removes a file or a link. -/
def remove (disk : Disk) (base : Location) (path : String) : Except SystemFault Disk := do
  match ← disk.locate base path with
  | (directory, some name) =>
      match ← disk.look directory name with
      | some (.file ..) | some (.link _) => do
          disk.ask (.remove (name :: directory))
          pure (disk.erase (name :: directory))
      | some .directory => .error .isDirectory
      | none => .error .notFound
  | (_, none) => .error .isDirectory

/-- Whether something may be moved to where something else may be: a file or a link may
replace one, a directory an empty directory, and nothing goes below itself. -/
def requireReplaceable (disk : Disk) (source target : Location) (moved : Entry)
    (replaced : Option Entry) : Except SystemFault Unit :=
  match moved, replaced with
  | .file .., some .directory | .link _, some .directory => .error .isDirectory
  | .file .., _ | .link _, _ => .ok ()
  | .directory, some (.file ..) | .directory, some (.link _) => .error .notDirectory
  | .directory, replaced =>
      if source ≠ target ∧ target.isBelow source then .error .invalidArgument
      else if replaced.isSome ∧ !disk.isEmptyDirectory target ∧ source ≠ target then
        .error .notEmpty
      else .ok ()

/-- Whether both are the same file. -/
def isSameFile (first : Entry) (second : Option Entry) : Bool :=
  match first, second with
  | .file id _, some (.file id' _) => id = id'
  | _, _ => false

/-- Renames a file, a link or a directory, which replaces what has the new name.
Separators at the end of the names do not count. Of two names of one file none replaces
the other. -/
def rename (disk : Disk) (base : Location) (source target : String) :
    Except SystemFault Disk := do
  let (sourceDirectory, sourceName) ← disk.locate base (Path.dropSeparators source)
  let (targetDirectory, targetName) ← disk.locate base (Path.dropSeparators target)
  match sourceName, targetName with
  | some sourceName, some targetName =>
      match ← disk.look sourceDirectory sourceName with
      | some moved =>
          let replaced ← disk.look targetDirectory targetName
          let source := sourceName :: sourceDirectory
          let target := targetName :: targetDirectory
          disk.requireReplaceable source target moved replaced
          disk.ask (.rename source target)
          pure (if isSameFile moved replaced then disk else disk.move source target)
      | none => .error .notFound
  | _, _ => .error .busy

end Wiring.Disk
