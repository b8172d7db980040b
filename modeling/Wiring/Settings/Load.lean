import Wiring.Disk.Walk
import Wiring.Failure
import Wiring.Settings.Layers

/-!
# Settings on a disk

A settings file that was asked for must be there. Otherwise the standard one is
read if there is such a file in the working directory.
-/

namespace Wiring.Settings

/-- The settings file that is read when none is asked for. -/
def standardFile : String := "koin-codegen.toml"

/-- The path of the settings file to read, if any. -/
def filePath? (disk : Disk) (directory : Location) (path : Option String) : Option String :=
  match path with
  | some path => some path
  | none => if disk.isFile directory standardFile then some standardFile else none

/-- The text of the settings file to read, if any. -/
def readFile (disk : Disk) (directory : Location) (path : Option String) :
    Except Failure (Option String) :=
  match filePath? disk directory path with
  | none => .ok none
  | some path =>
      match disk.readText directory path with
      | .ok text => .ok (some text)
      | .error fault => .error (.io path fault)

/-- The settings that the file, the environment and the overrides make. -/
def find (disk : Disk) (directory : Location) (path : Option String)
    (environment : List (String × String)) (overrides : Overrides) :
    Except Failure Settings := do
  let file ← readFile disk directory path
  match resolve file environment overrides with
  | .ok settings => pure settings
  | .error fault => .error (.settings fault)

/-- The report on the settings that were found. -/
def resolvedEvent (settings : Settings) : Event :=
  { level := .debug
    message := "resolved generator configuration"
    fields := [("rows_per_routine", toString settings.capacity.rows),
      ("package", settings.generatedPackage), ("out_dir", settings.outDir)] }

/-- The settings that a run is to use, and what is logged about them. -/
def load (disk : Disk) (directory : Location) (path : Option String)
    (environment : List (String × String)) (overrides : Overrides) :
    Except Failure Settings × List Event :=
  match find disk directory path environment overrides with
  | .ok settings => (.ok settings, [settings.resolvedEvent])
  | .error failure => (.error failure, [])

end Wiring.Settings
