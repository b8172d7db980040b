import Wiring.Draft
import Wiring.Json.Refusal
import Wiring.Report
import Wiring.Settings.Fault

/-!
# Failures of a run

A unit fails because of a definition or because of its sink; a run fails because
of a path, the metadata or the settings, or because units of it failed. A run
with one failed unit fails the way the unit does.
-/

namespace Wiring

/-- Why something failed. -/
inductive Failure where
  /-- A definition of a unit has no statement. -/
  | malformed (unit : String) (cause : Malformed)
  /-- The sink of a unit refused. -/
  | sink (unit : String) (cause : SystemFault)
  /-- A path could not be used. -/
  | io (path : String) (cause : SystemFault)
  /-- The metadata could not be read. -/
  | metadata (cause : Json.Misread)
  /-- The settings are not valid. -/
  | settings (cause : Settings.Fault)
  /-- Several units failed, or none at all. -/
  | several (failures : List Failure)
deriving Inhabited

namespace Failure

/-- The failure of a run whose units failed this way. -/
def ofList : List Failure → Failure
  | [failure] => failure
  | failures => several failures

/-- The unit that failed, if it was a unit. -/
def unit? : Failure → Option String
  | malformed unit _ => some unit
  | sink unit _ => some unit
  | _ => none

/-- The units among failures. -/
def units (failures : List Failure) : List String := failures.filterMap unit?

end Failure

mutual

/-- The wording of a failure. -/
def Failure.message : Failure → String
  | .malformed unit cause =>
      "unit '" ++ unit ++ "': definition '" ++ cause.definition ++ "' " ++ cause.defect.message
  | .sink unit cause =>
      "unit '" ++ unit ++ "': failed to write generated source: " ++ cause.message
  | .io path cause => "I/O error at " ++ path ++ ": " ++ cause.message
  | .metadata cause => "failed to parse metadata JSON: " ++ cause.message
  | .settings cause => "invalid configuration: " ++ cause.message
  | .several failures =>
      toString failures.length ++ " generated unit(s) failed:" ++ failureLines failures

/-- One line per failure. -/
def failureLines : List Failure → String
  | [] => ""
  | failure :: failures => "\n  - " ++ failure.message ++ failureLines failures

end

end Wiring
