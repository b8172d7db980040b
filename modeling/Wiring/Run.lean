import Wiring.Sink.Memory

/-!
# Generation runs

A run generates every declared module and then the default module, each into a
sink of its own. Units do not depend on each other: a failed one is reported and
the next one is attempted all the same. At the end the run has succeeded with the
names of all units, or failed with all failures.
-/

namespace Wiring

/-- A unit and the name of the file that holds it. -/
structure Job where
  fileName : String
  unit : SourceUnit
deriving DecidableEq, Repr, Inhabited

/-- The units of a run in order: the declared modules, then the default module. -/
def Metadata.jobs (metadata : Metadata) (settings : Settings) : List Job :=
  metadata.modules.map (fun module => ⟨module.fileName, module.sourceUnit settings⟩) ++
    [⟨settings.defaultFile, defaultUnit metadata.defaultSources settings⟩]

/-- Opens a sink per unit over a common state. An open sink carries the common
state along; completing or discarding it hands the state back. -/
structure SinkFactory (φ σ : Type) where
  /-- The operations of the sinks. -/
  sink : Sink σ
  /-- Opens the sink of a file; where it cannot, the state is handed back. -/
  openUnit : String → φ → Except (Failure × φ) σ
  /-- Takes back the sink of a unit that was completed. -/
  complete : String → σ → φ
  /-- Takes back the sink of a unit that failed. -/
  discard : String → σ → φ × List Event

/-- What became of a run. -/
structure RunResult (φ : Type) where
  /-- The file of every unit with what became of it, in order. -/
  outcomes : List (String × Except Failure Unit)
  /-- The common state of the sinks. -/
  state : φ
  /-- The events in order. -/
  log : List Event

namespace SinkFactory

variable {φ σ : Type} (factory : SinkFactory φ σ)

/-- Generates one unit. -/
def attempt (job : Job) (state : φ) : Except Failure Unit × φ × List Event :=
  match factory.openUnit job.fileName state with
  | .error (failure, state) => (.error failure, state, [])
  | .ok opened =>
      match factory.sink.deliver job.unit opened with
      | (.ok (), opened, log) => (.ok (), factory.complete job.fileName opened, log)
      | (.error failure, opened, log) =>
          let (state, discarded) := factory.discard job.fileName opened
          (.error failure, state, log ++ discarded)

/-- The report on one unit. -/
def outcomeEvent (fileName : String) : Except Failure Unit → Event
  | .ok () => { level := .info, message := "generated unit", fields := [("unit", fileName)] }
  | .error failure =>
      { level := .warn
        message := "unit generation failed"
        fields := [("unit", fileName), ("error", failure.message)] }

/-- Generates all units in order. -/
def run : List Job → φ → RunResult φ
  | [], state => { outcomes := [], state, log := [] }
  | job :: jobs, state =>
      let (outcome, state, log) := factory.attempt job state
      let rest := run jobs state
      { outcomes := (job.fileName, outcome) :: rest.outcomes
        state := rest.state
        log := log ++ outcomeEvent job.fileName outcome :: rest.log }

end SinkFactory

namespace RunResult

variable {φ : Type}

/-- The files of the units that were completed. -/
def completed (result : RunResult φ) : List String :=
  result.outcomes.filterMap fun (fileName, outcome) =>
    match outcome with
    | .ok () => some fileName
    | .error _ => none

/-- The failures in order. -/
def failures (result : RunResult φ) : List Failure :=
  result.outcomes.filterMap fun (_, outcome) =>
    match outcome with
    | .ok () => none
    | .error failure => some failure

/-- The files of all units, or why the run failed. -/
def report (result : RunResult φ) : Except Failure (List String) :=
  if result.failures.isEmpty then .ok result.completed
  else .error (.ofList result.failures)

end RunResult

/-! ## Units kept in memory -/

/-- Completed units in the order of their completion. -/
structure UnitStore where
  /-- The file names with their texts. -/
  units : List (String × String) := []
deriving DecidableEq, Repr, Inhabited

namespace UnitStore

/-- The first text stored under a name. -/
def find? (store : UnitStore) (fileName : String) : Option String :=
  store.units.lookup fileName

/-- A sink that collects a text beside the store. -/
def sink : Sink (UnitStore × TextBuffer) :=
  TextBuffer.sink.through Prod.snd fun buffer (store, _) => (store, buffer)

/-- Keeps the texts of completed units. -/
def factory : SinkFactory UnitStore (UnitStore × TextBuffer) :=
  { sink
    openUnit := fun _ store => .ok (store, {})
    complete := fun fileName (store, buffer) =>
      { units := store.units ++ [(fileName, buffer.text)] }
    discard := fun _ (store, _) => (store, []) }

end UnitStore

/-! ## Recorded runs -/

/-- The recorders of a run. -/
structure Recordings where
  /-- The recorders in the order in which they were opened. -/
  seen : List (String × Recorder) := []
  /-- The files of the completed units. -/
  completed : List String := []
deriving DecidableEq, Repr, Inhabited

namespace Recordings

/-- The sink of the recorder that is open. -/
def sink : Sink (Recordings × Recorder) :=
  Recorder.sink.through Prod.snd fun recorder (recordings, _) => (recordings, recorder)

/-- Records every unit; which calls are refused depends on the name of the file. -/
def factory (refusals : String → Refusals) : SinkFactory Recordings (Recordings × Recorder) :=
  { sink
    openUnit := fun fileName recordings =>
      let refusals := refusals fileName
      if refusals.openUnit then .error (.io fileName (.other "open refused"), recordings)
      else .ok (recordings, { refusals })
    complete := fun fileName (recordings, recorder) =>
      { seen := recordings.seen ++ [(fileName, recorder)]
        completed := recordings.completed ++ [fileName] }
    discard := fun fileName (recordings, recorder) =>
      ({ recordings with seen := recordings.seen ++ [(fileName, recorder)] }, []) }

end Recordings

end Wiring
