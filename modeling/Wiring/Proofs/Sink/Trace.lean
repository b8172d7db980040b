import Wiring.Sink.Memory

/-!
# Traces of sinks

What a unit does to its sink is the list of calls made on it, each with its
answer. A sink can be watched without changing it: the watched sink forwards every
call and notes it down. A sink that forwards to another one is indistinguishable
from it for every unit.

What can be seen of a sink is how it answers. Two states of a sink are alike if no
sequence of calls is answered differently; a unit then fares the same from both of
them. The behaviours themselves are the states of a sink to which every sink
forwards, so this needs no argument of its own about units.
-/

namespace Wiring

/-- Calls of a sink in order, each with its answer. -/
abbrev Trace := List (SinkCall × Except SystemFault Unit)

namespace Trace

/-- A text that was taken. -/
def taken (text : String) : SinkCall × Except SystemFault Unit := (.append text, .ok ())

/-- The text of a call, if it offered one that was taken. -/
def takenText? : SinkCall × Except SystemFault Unit → Option String
  | (.append text, .ok ()) => some text
  | _ => none

/-- The texts that were taken, in order. -/
def texts (trace : Trace) : List String := trace.filterMap takenText?

theorem texts_map_taken_append (contents : List String) (rest : Trace) :
    texts (contents.map taken ++ rest) = contents ++ texts rest := by
  induction contents with
  | nil => rfl
  | cons text contents ih => exact congrArg (text :: ·) ih

end Trace

namespace Sink

variable {σ τ : Type}

/-- The answer of a sink to a call, and the state behind it. -/
def call (sink : Sink σ) : SinkCall → σ → Except SystemFault Unit × σ
  | .append text, state => sink.append text state
  | .flush, state => sink.flush state
  | .close, state => sink.close state
  | .abandon, state => sink.abandon state

/-! ## Forwarding -/

/-- Every call is answered as the inner sink answers it, and the part of the state
that `project` shows follows the inner sink. -/
def Forwards (project : τ → σ) (outer : Sink τ) (inner : Sink σ) : Prop :=
  ∀ call state, inner.call call (project state) =
    ((outer.call call state).1, project (outer.call call state).2)

namespace Forwards

variable {project : τ → σ} {outer : Sink τ} {inner : Sink σ}

theorem takeSteps (h : Forwards project outer inner) (steps : List Step) (state : τ) :
    inner.takeSteps steps (project state) =
      (outer.takeSteps steps state).map id (Prod.map project id) := by
  induction steps generalizing state with
  | nil => rfl
  | cons step steps ih =>
      cases step with
      | log event =>
          simp only [Sink.takeSteps, ih]
          rfl
      | append text =>
          have happend : inner.append text (project state) =
              ((outer.append text state).1, project (outer.append text state).2) :=
            h (.append text) state
          simp only [Sink.takeSteps]
          rw [happend]
          rcases outer.append text state with ⟨answer, next⟩
          cases answer with
          | ok _ => exact ih next
          | error fault => rfl

theorem write (h : Forwards project outer inner) (unit : String) (draft : Draft) (state : τ) :
    inner.write unit draft (project state) =
      (outer.write unit draft state).map id (Prod.map project id) := by
  unfold Sink.write
  rw [h.takeSteps]
  rcases outer.takeSteps draft.steps state with ⟨answer, next, log⟩
  cases answer <;> cases draft.stop <;> rfl

theorem flushAndClose (h : Forwards project outer inner) (state : τ) :
    inner.flushAndClose (project state) = (outer.flushAndClose state).map id project := by
  have hflush : inner.flush (project state) =
      ((outer.flush state).1, project (outer.flush state).2) := h .flush state
  unfold Sink.flushAndClose
  rw [hflush]
  rcases outer.flush state with ⟨answer, next⟩
  cases answer with
  | ok _ => exact h .close next
  | error fault => rfl

theorem release (h : Forwards project outer inner) (unit : String) (state : τ) :
    inner.release unit (project state) = (outer.release unit state).map project id := by
  have habandon : inner.abandon (project state) =
      ((outer.abandon state).1, project (outer.abandon state).2) := h .abandon state
  unfold Sink.release
  rw [habandon]
  rcases outer.abandon state with ⟨answer, next⟩
  cases answer <;> rfl

theorem finish (h : Forwards project outer inner) (unit : String) (state : τ) :
    inner.finish unit (project state) =
      (outer.finish unit state).map id (Prod.map project id) := by
  unfold Sink.finish
  rw [h.flushAndClose]
  rcases outer.flushAndClose state with ⟨answer, next⟩
  cases answer with
  | ok _ => rfl
  | error fault =>
      simp only [Prod.map_apply, id_eq, h.release]
      rfl

/-- A unit fares the same at a sink and at one that forwards to it. -/
theorem deliver (h : Forwards project outer inner) (unit : SourceUnit) (state : τ) :
    inner.deliver unit (project state) =
      (outer.deliver unit state).map id (Prod.map project id) := by
  unfold Sink.deliver
  rw [h.write]
  rcases outer.write unit.name unit.draft state with ⟨answer, next, log⟩
  cases answer with
  | ok _ =>
      simp only [Prod.map_apply, id_eq, h.finish]
      rfl
  | error failure =>
      simp only [Prod.map_apply, id_eq, h.release]
      rfl

end Forwards

theorem forwards_through (sink : Sink σ) {get : τ → σ} {put : σ → τ → τ}
    (hget : ∀ inner outer, get (put inner outer) = inner) :
    Forwards get (sink.through get put) sink := by
  intro call state
  cases call <;> simp [Sink.call, Sink.through, hget]

/-! ## Watching a sink -/

/-- The sink that notes every call and its answer beside the state. -/
def traced (sink : Sink σ) : Sink (σ × Trace) :=
  let note (call : SinkCall) := fun ((state, trace) : σ × Trace) =>
    let (answer, state) := sink.call call state
    (answer, state, trace ++ [(call, answer)])
  { append := fun text => note (.append text)
    flush := note .flush
    close := note .close
    abandon := note .abandon }

theorem call_traced (sink : Sink σ) (call : SinkCall) (state : σ) (trace : Trace) :
    sink.traced.call call (state, trace) =
      ((sink.call call state).1, (sink.call call state).2,
        trace ++ [(call, (sink.call call state).1)]) := by
  cases call <;> rfl

theorem forwards_traced (sink : Sink σ) : Forwards Prod.fst sink.traced sink := by
  rintro call ⟨state, trace⟩
  rw [call_traced]

/-- Forwarding carries over to the watched sinks. -/
theorem Forwards.traced {project : τ → σ} {outer : Sink τ} {inner : Sink σ}
    (h : Forwards project outer inner) :
    Forwards (Prod.map project id) outer.traced inner.traced := by
  rintro call ⟨state, trace⟩
  rw [Prod.map_apply, call_traced, call_traced, h call state]
  rfl

/-- The calls that a unit makes on a sink. -/
def trace (sink : Sink σ) (unit : SourceUnit) (state : σ) : Trace :=
  (sink.traced.deliver unit (state, [])).2.1.2

/-- The texts of a unit that a sink takes, in order. -/
def received (sink : Sink σ) (unit : SourceUnit) (state : σ) : List String :=
  (sink.trace unit state).texts

/-- Watching a sink changes nothing for the unit. -/
theorem deliver_traced (sink : Sink σ) (unit : SourceUnit) (state : σ) :
    sink.deliver unit state =
      (sink.traced.deliver unit (state, [])).map id (Prod.map Prod.fst id) :=
  sink.forwards_traced.deliver unit (state, [])

theorem Forwards.trace {project : τ → σ} {outer : Sink τ} {inner : Sink σ}
    (h : Forwards project outer inner) (unit : SourceUnit) (state : τ) :
    outer.trace unit state = inner.trace unit (project state) := by
  unfold Sink.trace
  have hdeliver := h.traced.deliver unit (state, [])
  rw [Prod.map_apply, id_eq] at hdeliver
  rw [hdeliver]
  rfl

end Sink

end Wiring

namespace Wiring.Sink

variable {σ τ : Type}

/-! ## Behaviours -/

/-- The answers to calls made one after the other. -/
def answers (sink : Sink σ) : List SinkCall → σ → List (Except SystemFault Unit)
  | [], _ => []
  | call :: calls, state =>
      (sink.call call state).1 :: sink.answers calls (sink.call call state).2

/-- Two states of a sink that no sequence of calls tells apart. -/
def Alike (sink : Sink σ) (first second : σ) : Prop :=
  ∀ calls, sink.answers calls first = sink.answers calls second

/-- The sink whose states are behaviours: what is answered to every sequence of calls. -/
def ofBehaviour : Sink (List SinkCall → List (Except SystemFault Unit)) :=
  let answer (call : SinkCall) := fun behaviour : List SinkCall → List (Except SystemFault Unit) =>
    ((behaviour [call]).headD (.ok ()), fun calls => (behaviour (call :: calls)).tail)
  { append := fun text => answer (.append text)
    flush := answer .flush
    close := answer .close
    abandon := answer .abandon }

/-- Every sink forwards to the sink of its behaviours. -/
theorem forwards_ofBehaviour (sink : Sink σ) :
    Forwards (fun state calls => sink.answers calls state) sink ofBehaviour := by
  intro call state
  cases call <;> rfl

theorem Alike.behaviour_eq {sink : Sink σ} {first second : σ} (h : sink.Alike first second) :
    (fun calls => sink.answers calls first) = fun calls => sink.answers calls second :=
  funext h

/-- A unit fares the same from states that are alike. -/
theorem Alike.deliver_eq {sink : Sink σ} {first second : σ} (h : sink.Alike first second)
    (unit : SourceUnit) : (sink.deliver unit first).1 = (sink.deliver unit second).1 := by
  have hfirst := sink.forwards_ofBehaviour.deliver unit first
  have hsecond := sink.forwards_ofBehaviour.deliver unit second
  rw [h.behaviour_eq, hsecond] at hfirst
  exact (congrArg Prod.fst hfirst).symm

/-- A unit makes the same calls on states that are alike, with the same answers. -/
theorem Alike.trace_eq {sink : Sink σ} {first second : σ} (h : sink.Alike first second)
    (unit : SourceUnit) : sink.trace unit first = sink.trace unit second := by
  rw [sink.forwards_ofBehaviour.trace unit first, h.behaviour_eq,
    ← sink.forwards_ofBehaviour.trace unit second]

theorem Forwards.answers_eq {project : τ → σ} {outer : Sink τ} {inner : Sink σ}
    (h : Forwards project outer inner) (calls : List SinkCall) (state : τ) :
    outer.answers calls state = inner.answers calls (project state) := by
  induction calls generalizing state with
  | nil => rfl
  | cons call calls ih => rw [answers, answers, h call state, ih]

/-- States are alike if the inner states to which they forward are the same. -/
theorem Forwards.alike {project : τ → σ} {outer : Sink τ} {inner : Sink σ}
    (h : Forwards project outer inner) {first second : τ}
    (heq : project first = project second) : outer.Alike first second := by
  intro calls
  rw [h.answers_eq, h.answers_eq, heq]

/-- A sink reached through a place of a larger state leaves the rest of that state as
it is. -/
theorem forwards_put (sink : Sink σ) (get : τ → σ) (put : σ → τ → τ)
    (hget : ∀ inner outer, get (put inner outer) = inner)
    (hput : ∀ first second outer, put first (put second outer) = put first outer) (outer : τ) :
    Forwards (fun inner => put inner outer) sink (sink.through get put) := by
  intro call state
  cases call <;> simp [Sink.call, Sink.through, hget, hput]

end Wiring.Sink
