import Wiring.Disk.Change
import Wiring.Disk.OpenFile
import Wiring.Run

/-!
# Units staged on a disk

A unit is written to a staging file beside its target and takes the target's name
when it is closed. Until then the target stays as it was. A unit that is given up,
or forgotten, leaves no staging file.
-/

namespace Wiring

/-- The name of the staging file of a unit. -/
def stagingName (fileName : String) : String := "." ++ fileName ++ ".partial"

/-- A unit on its way to a file. -/
structure StagedUnit where
  /-- The directory of the file. -/
  directory : Location
  fileName : String
  /-- The staging file as long as it is open. -/
  file : Option OpenFile
  /-- Whether the staging file took the name of the target. -/
  isCommitted : Bool := false
deriving Inhabited

namespace StagedUnit

/-- Creates the staging file of a unit. -/
def create (directory : Location) (fileName : String) (disk : Disk) :
    Except SystemFault (Disk × StagedUnit) := do
  let (id, disk) ← disk.create directory (stagingName fileName)
  pure (disk, { directory, fileName, file := some { id } })

/-- Takes a text. -/
def append (text : String) : Disk × StagedUnit → Except SystemFault Unit × Disk × StagedUnit
  | (disk, staged) =>
      match staged.file with
      | some file =>
          let (answer, file, disk) := file.append text.toUTF8 disk
          (answer, disk, { staged with file := some file })
      | none => (.error .released, disk, staged)

/-- Writes what is held back. -/
def flush : Disk × StagedUnit → Except SystemFault Unit × Disk × StagedUnit
  | (disk, staged) =>
      match staged.file with
      | some file =>
          let (answer, file, disk) := file.drain disk
          (answer, disk, { staged with file := some file })
      | none => (.error .released, disk, staged)

/-- Gives the staging file its final name once everything written is kept for good. -/
def publish (staged : StagedUnit) (file : OpenFile) (disk : Disk) : Except SystemFault Disk := do
  disk.ask (.sync file.id)
  disk.rename staged.directory (stagingName staged.fileName) staged.fileName

/-- Writes what is held back and gives the staging file its final name. What cannot be
written is tried once more when the file is let go. -/
def close : Disk × StagedUnit → Except SystemFault Unit × Disk × StagedUnit
  | (disk, staged) =>
      match staged.file with
      | some file =>
          let released := { staged with file := none }
          match file.drain disk with
          | (.error fault, file, disk) => (.error fault, (file.drain disk).2.2, released)
          | (.ok (), file, disk) =>
              match released.publish file disk with
              | .ok disk => (.ok (), disk, { released with isCommitted := true })
              | .error fault => (.error fault, disk, released)
      | none => (.error .released, disk, staged)

/-- Removes the staging file; one that is missing is fine. -/
def removeStaging (staged : StagedUnit) (disk : Disk) : Except SystemFault Unit × Disk :=
  match disk.remove staged.directory (stagingName staged.fileName) with
  | .ok disk => (.ok (), disk)
  | .error .notFound => (.ok (), disk)
  | .error fault => (.error fault, disk)

/-- Gives the unit up: the staging file is let go and, unless it was committed,
removed. -/
def abandon : Disk × StagedUnit → Except SystemFault Unit × Disk × StagedUnit
  | (disk, staged) =>
      let disk :=
        match staged.file with
        | some file => (file.drain disk).2.2
        | none => disk
      let staged := { staged with file := none }
      if staged.isCommitted then (.ok (), disk, staged)
      else
        let (result, disk) := staged.removeStaging disk
        (result, disk, staged)

/-- The sink that stages. -/
def sink : Sink (Disk × StagedUnit) := { append, flush, close, abandon }

/-- The report on a staging file that could not be removed. -/
def forgetEvent (fileName : String) (fault : SystemFault) : Event :=
  { level := .debug
    message := "failed to remove partial output"
    fields := [("file", fileName), ("error", fault.message)] }

/-- Lets go of the unit; one that was not committed is given up. -/
def forget (state : Disk × StagedUnit) : Disk × List Event :=
  if state.2.isCommitted then (state.1, [])
  else
    match abandon state with
    | (.ok (), disk, _) => (disk, [])
    | (.error fault, disk, staged) => (disk, [forgetEvent staged.fileName fault])

end StagedUnit

/-- The directory that receives the units of a run. -/
structure OutputDirectory where
  path : String
  /-- Where it is. -/
  location : Location
deriving DecidableEq, Repr, Inhabited

namespace OutputDirectory

/-- Opens the directory at a path; it is made if it is missing. -/
def ensure (directory : Location) (path : String) (disk : Disk) :
    Except Failure OutputDirectory × Disk :=
  match disk.ensureDirectory directory path with
  | (.ok location, disk) => (.ok { path, location }, disk)
  | (.error fault, disk) => (.error (.io path fault), disk)

/-- Opens a unit in the directory. -/
def openUnit (output : OutputDirectory) (fileName : String) (disk : Disk) :
    Except Failure (Disk × StagedUnit) :=
  match disk.ask (.share output.location) with
  | .error fault => .error (.io output.path fault)
  | .ok () =>
      match StagedUnit.create output.location fileName disk with
      | .ok state => .ok state
      | .error fault => .error (.io (Path.append output.path fileName) fault)

/-- Stages every unit in the directory. -/
def factory (output : OutputDirectory) : SinkFactory Disk (Disk × StagedUnit) :=
  { sink := StagedUnit.sink
    openUnit := fun fileName disk =>
      (output.openUnit fileName disk).mapError fun failure => (failure, disk)
    complete := fun _ state => state.1
    discard := fun _ state => StagedUnit.forget state }

end OutputDirectory

end Wiring
