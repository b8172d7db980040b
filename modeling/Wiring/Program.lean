import Wiring.CommandLine
import Wiring.Disk.Staging
import Wiring.Metadata.Decode
import Wiring.Settings.Load

/-!
# The program

A run of the program reads the settings and the metadata before it touches
anything; only then it makes the output directory and attempts every unit. What it
leaves behind is a disk, a text for whoever asked, and a status.
-/

namespace Wiring.Program

/-- What a run of the program works on. -/
structure Host where
  disk : Disk
  /-- The working directory. -/
  directory : Location
  environment : List (String × String)
deriving Inhabited

/-- What a run of the program leaves behind. -/
structure Outcome where
  /-- Zero on success, one on failure, two where the arguments make no sense. -/
  status : Nat
  /-- What is answered. -/
  output : String := ""
  disk : Disk
  /-- The events in order. -/
  log : List Event := []

/-- The report on a run that succeeded. -/
def completeEvent (units : List String) (output : OutputDirectory) : Event :=
  { level := .info
    message := "generation complete"
    fields := [("units", toString units.length), ("out_dir", output.path)] }

/-- The report on a run that failed. -/
def failedEvent (failure : Failure) : Event :=
  { level := .error, message := "generation failed", fields := [("error", failure.message)] }

/-- What a failed run leaves behind. -/
def fail (failure : Failure) (disk : Disk) (log : List Event) : Outcome :=
  { status := 1, disk, log := log ++ [failedEvent failure] }

/-- Generates all units of the metadata into the output directory of the
settings. -/
def generate (host : Host) (settings : Settings) (metadata : Metadata) (log : List Event) :
    Outcome :=
  match OutputDirectory.ensure host.directory settings.outDir host.disk with
  | (.error failure, disk) => fail failure disk log
  | (.ok output, disk) =>
      let result := output.factory.run (metadata.jobs settings) disk
      match result.report with
      | .error failure => fail failure result.state (log ++ result.log)
      | .ok units =>
          { status := 0
            disk := result.state
            log := log ++ result.log ++ [completeEvent units output] }

/-- The settings and the metadata that arguments ask for, and what is logged on the way. -/
def prepare (host : Host) (arguments : CommandLine.Arguments) :
    Except Failure (Settings × Metadata) × List Event :=
  match Settings.load host.disk host.directory arguments.settingsFile host.environment
    arguments.overrides with
  | (.error failure, log) => (.error failure, log)
  | (.ok settings, log) =>
      ((Metadata.load host.disk host.directory arguments.metadata).map (settings, ·), log)

/-- Runs the program with the arguments behind its name. -/
def run (host : Host) (arguments : List String) : Outcome :=
  match CommandLine.read arguments with
  | .error _ => { status := 2, disk := host.disk }
  | .ok (.ask question) => { status := 0, output := question.answer, disk := host.disk }
  | .ok (.run arguments) =>
      match prepare host arguments with
      | (.error failure, log) => fail failure host.disk log
      | (.ok (settings, metadata), log) => generate host settings metadata log

end Wiring.Program
