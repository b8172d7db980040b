import Wiring.Failure
import Wiring.SourceUnit

/-!
# Sinks and the release protocol

A sink takes the texts of one unit. A unit that is complete is flushed and closed;
in every other case the sink is abandoned, once and last, so that nothing of an
incomplete unit is ever committed. What a sink does with a call is its own affair:
it is any state with four operations, each of which may fail.
-/

namespace Wiring

/-- The four operations of a sink over a state. -/
structure Sink (σ : Type) where
  /-- Takes a text. -/
  append : String → σ → Except SystemFault Unit × σ
  /-- Passes on what is held back. -/
  flush : σ → Except SystemFault Unit × σ
  /-- Completes the unit. -/
  close : σ → Except SystemFault Unit × σ
  /-- Gives the unit up. -/
  abandon : σ → Except SystemFault Unit × σ

namespace Sink

variable {σ : Type} (sink : Sink σ)

/-- The sink reached through a place of a larger state: every call is passed on to
it, and the rest of the state only carries it along. -/
def through {τ : Type} (get : τ → σ) (put : σ → τ → τ) : Sink τ :=
  let passOn (step : σ → Except SystemFault Unit × σ) := fun state =>
    let (result, inner) := step (get state)
    (result, put inner state)
  { append := fun text => passOn (sink.append text)
    flush := passOn sink.flush
    close := passOn sink.close
    abandon := passOn sink.abandon }

/-- Takes the steps of a draft until a text is refused. -/
def takeSteps : List Step → σ → Except SystemFault Unit × σ × List Event
  | [], state => (.ok (), state, [])
  | .log event :: steps, state =>
      let (result, state, log) := takeSteps steps state
      (result, state, event :: log)
  | .append text :: steps, state =>
      match sink.append text state with
      | (.ok (), state) => takeSteps steps state
      | (.error fault, state) => (.error fault, state, [])

/-- Writes a draft; a refused text and a definition without a statement are
reported under the name of the unit. -/
def write (unit : String) (draft : Draft) (state : σ) :
    Except Failure Unit × σ × List Event :=
  let (result, state, log) := sink.takeSteps draft.steps state
  match result, draft.stop with
  | .error fault, _ => (.error (.sink unit fault), state, log)
  | .ok (), some malformed => (.error (.malformed unit malformed), state, log)
  | .ok (), none => (.ok (), state, log)

/-- Flushes and, if that went well, closes. -/
def flushAndClose (state : σ) : Except SystemFault Unit × σ :=
  match sink.flush state with
  | (.error fault, state) => (.error fault, state)
  | (.ok (), state) => sink.close state

/-- The report on a sink that could not even be abandoned. -/
def releaseEvent (unit : String) (fault : SystemFault) : Event :=
  { level := .debug
    message := "failed to release abandoned sink"
    fields := [("unit", unit), ("error", fault.message)] }

/-- Abandons the sink; that this may fail is only reported. -/
def release (unit : String) (state : σ) : σ × List Event :=
  match sink.abandon state with
  | (.ok (), state) => (state, [])
  | (.error fault, state) => (state, [releaseEvent unit fault])

/-- Flushes and closes the sink; where either fails, the sink is released. -/
def finish (unit : String) (state : σ) : Except Failure Unit × σ × List Event :=
  match sink.flushAndClose state with
  | (.ok (), state) => (.ok (), state, [])
  | (.error fault, state) =>
      let (state, log) := sink.release unit state
      (.error (.sink unit fault), state, log)

/-- Writes a unit and finishes it; where the unit cannot be written, the sink is
released. -/
def deliver (unit : SourceUnit) (state : σ) : Except Failure Unit × σ × List Event :=
  match sink.write unit.name unit.draft state with
  | (.ok (), state, written) =>
      let (result, state, log) := sink.finish unit.name state
      (result, state, written ++ log)
  | (.error failure, state, written) =>
      let (state, log) := sink.release unit.name state
      (.error failure, state, written ++ log)

end Sink

end Wiring
