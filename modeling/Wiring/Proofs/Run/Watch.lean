import Wiring.Proofs.Sink.Trace
import Wiring.Run

/-!
# Watching a run

A factory can be watched as a sink can: the watched factory notes beside the common
state what became of every unit, with the calls that were made on its sink. The run
itself is not changed by being watched.
-/

namespace Wiring

/-- What a factory saw of a unit. -/
inductive Visit where
  /-- No sink was opened for it. -/
  | refused (fileName : String)
  /-- Its sink was taken back complete. -/
  | completed (fileName : String) (calls : Trace)
  /-- Its sink was taken back after a failure. -/
  | discarded (fileName : String) (calls : Trace)

namespace Visit

/-- The file of the unit. -/
def fileName : Visit → String
  | refused fileName | completed fileName _ | discarded fileName _ => fileName

/-- The file of a unit that was completed. -/
def completed? : Visit → Option String
  | completed fileName _ => some fileName
  | refused _ | discarded _ _ => none

end Visit

namespace SinkFactory

variable {φ σ : Type} (factory : SinkFactory φ σ)

/-- The factory that notes every visit beside the common state. -/
def watched : SinkFactory (φ × List Visit) ((σ × Trace) × List Visit) :=
  { sink := factory.sink.traced.through Prod.fst fun inner (_, visits) => (inner, visits)
    openUnit := fun fileName (state, visits) =>
      match factory.openUnit fileName state with
      | .ok opened => .ok ((opened, []), visits)
      | .error (failure, state) => .error (failure, state, visits ++ [.refused fileName])
    complete := fun fileName ((opened, calls), visits) =>
      (factory.complete fileName opened, visits ++ [.completed fileName calls])
    discard := fun fileName ((opened, calls), visits) =>
      let (state, log) := factory.discard fileName opened
      ((state, visits ++ [.discarded fileName calls]), log) }

/-- What the factory sees of a unit that is attempted in a state. -/
def visit (job : Job) (state : φ) : Visit :=
  match factory.openUnit job.fileName state with
  | .error _ => .refused job.fileName
  | .ok opened =>
      match (factory.sink.deliver job.unit opened).1 with
      | .ok () => .completed job.fileName (factory.sink.trace job.unit opened)
      | .error _ => .discarded job.fileName (factory.sink.trace job.unit opened)

/-- All visits of a run, in order. -/
def history (jobs : List Job) (state : φ) : List Visit :=
  (factory.watched.run jobs (state, [])).state.2

theorem deliver_watched (unit : SourceUnit) (opened : σ) (visits : List Visit) :
    factory.watched.sink.deliver unit ((opened, []), visits) =
      ((factory.sink.deliver unit opened).1,
        (((factory.sink.deliver unit opened).2.1, factory.sink.trace unit opened), visits),
        (factory.sink.deliver unit opened).2.2) := by
  -- the visits stay as they are until the sink is taken back
  have hforwards : Sink.Forwards (fun inner => (inner, visits)) factory.sink.traced
      factory.watched.sink :=
    factory.sink.traced.forwards_put Prod.fst (fun inner (_, visits) => (inner, visits))
      (fun _ _ => rfl) (fun _ _ _ => rfl) ((opened, []), visits)
  rw [hforwards.deliver unit (opened, []), factory.sink.deliver_traced unit opened]
  rfl

/-- A watched unit fares as it does unwatched, and one visit is noted for it. -/
theorem attempt_watched (job : Job) (state : φ) (visits : List Visit) :
    factory.watched.attempt job (state, visits) =
      ((factory.attempt job state).1,
        ((factory.attempt job state).2.1, visits ++ [factory.visit job state]),
        (factory.attempt job state).2.2) := by
  unfold attempt visit
  cases hopened : factory.openUnit job.fileName state with
  | error refusal => simp [watched, hopened]
  | ok opened =>
      have hwatched : factory.watched.openUnit job.fileName (state, visits) =
          .ok ((opened, []), visits) := by
        simp [watched, hopened]
      simp only [hwatched, deliver_watched]
      rcases factory.sink.deliver job.unit opened with ⟨result, behind, log⟩
      cases result <;> rfl

/-- Where a sink is opened for a unit, its delivery decides what is handed back. -/
theorem attempt_of_openUnit {job : Job} {state : φ} {opened : σ}
    (hopen : factory.openUnit job.fileName state = .ok opened) :
    let delivered := factory.sink.deliver job.unit opened
    (factory.attempt job state).1 = delivered.1 ∧
      (factory.attempt job state).2.1 =
        match delivered.1 with
        | .ok () => factory.complete job.fileName delivered.2.1
        | .error _ => (factory.discard job.fileName delivered.2.1).1 := by
  intro delivered
  unfold attempt
  simp only [hopen]
  rcases hdelivered : factory.sink.deliver job.unit opened with ⟨result, behind, log⟩
  cases result <;> simp [delivered, hdelivered]

theorem run_cons (job : Job) (jobs : List Job) (state : φ) :
    factory.run (job :: jobs) state =
      let rest := factory.run jobs (factory.attempt job state).2.1
      { outcomes := (job.fileName, (factory.attempt job state).1) :: rest.outcomes
        state := rest.state
        log := (factory.attempt job state).2.2 ++
          outcomeEvent job.fileName (factory.attempt job state).1 :: rest.log } := rfl

theorem map_fst_outcomes (jobs : List Job) (state : φ) :
    (factory.run jobs state).outcomes.map Prod.fst = jobs.map Job.fileName := by
  induction jobs generalizing state with
  | nil => rfl
  | cons job jobs ih => simp [run_cons, ih]

@[simp] theorem fileName_visit (job : Job) (state : φ) :
    (factory.visit job state).fileName = job.fileName := by
  unfold visit
  split
  · rfl
  · split <;> rfl

theorem completed?_visit (job : Job) (state : φ) :
    (factory.visit job state).completed? =
      match (factory.attempt job state).1 with
      | .ok () => some job.fileName
      | .error _ => none := by
  unfold visit attempt
  cases factory.openUnit job.fileName state with
  | error refusal => rfl
  | ok opened =>
      simp only
      rcases factory.sink.deliver job.unit opened with ⟨result, behind, log⟩
      cases result <;> rfl

/-- Watching a run changes nothing for it. -/
theorem run_watched (jobs : List Job) (state : φ) (visits : List Visit) :
    let watched := factory.watched.run jobs (state, visits)
    factory.run jobs state =
      { outcomes := watched.outcomes, state := watched.state.1, log := watched.log } := by
  induction jobs generalizing state visits with
  | nil => rfl
  | cons job jobs ih =>
      have hrest := ih (factory.attempt job state).2.1 (visits ++ [factory.visit job state])
      simp only [run_cons, attempt_watched, hrest]

/-- One visit is noted for every unit, in order. -/
theorem map_fileName_watched (jobs : List Job) (state : φ) (visits : List Visit) :
    (factory.watched.run jobs (state, visits)).state.2.map Visit.fileName =
      visits.map Visit.fileName ++ jobs.map Job.fileName := by
  induction jobs generalizing state visits with
  | nil => exact (List.append_nil _).symm
  | cons job jobs ih => simp [run_cons, attempt_watched, ih]

/-- The sinks taken back complete are those of the units that the run completed. -/
theorem filterMap_completed?_watched (jobs : List Job) (state : φ) (visits : List Visit) :
    (factory.watched.run jobs (state, visits)).state.2.filterMap Visit.completed? =
      visits.filterMap Visit.completed? ++ (factory.run jobs state).completed := by
  unfold RunResult.completed
  induction jobs generalizing state visits with
  | nil => exact (List.append_nil _).symm
  | cons job jobs ih =>
      simp only [run_cons, attempt_watched, ih, List.filterMap_append, List.filterMap_cons,
        List.filterMap_nil, completed?_visit]
      cases (factory.attempt job state).1 <;> simp

end SinkFactory

end Wiring
