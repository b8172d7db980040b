import Wiring.Proofs.Sink.Release
import Wiring.Proofs.Sink.Trace

/-!
# Calls made one after the other

A unit does nothing to its sink but make calls, so what every call keeps a unit keeps,
and the state it leaves is the one its calls lead to. One sink simulates another when
related states answer every call alike and stay related; that carries over to calls of
any number.
-/

namespace Wiring

namespace SinkCall

end SinkCall

namespace Sink

variable {σ τ : Type}

/-- The state behind calls made one after the other. -/
def after (sink : Sink σ) : List SinkCall → σ → σ
  | [], state => state
  | call :: calls, state => sink.after calls (sink.call call state).2

theorem after_append (sink : Sink σ) (first second : List SinkCall) (state : σ) :
    sink.after (first ++ second) state = sink.after second (sink.after first state) := by
  induction first generalizing state with
  | nil => rfl
  | cons call first ih => exact ih (sink.call call state).2

section Keeps

variable {sink : Sink σ} {P : σ → Prop}
  (hcall : ∀ call state, P state → P (sink.call call state).2)

/-- The sink over the states that have a property which every call keeps. -/
def restrict (sink : Sink σ) (P : σ → Prop)
    (hcall : ∀ call state, P state → P (sink.call call state).2) : Sink { state // P state } :=
  let step (call : SinkCall) := fun state : { state // P state } =>
    ((sink.call call state.1).1, ⟨(sink.call call state.1).2, hcall call state.1 state.2⟩)
  { append := fun text => step (.append text)
    flush := step .flush
    close := step .close
    abandon := step .abandon }

include hcall

theorem forwards_restrict : Forwards Subtype.val (sink.restrict P hcall) sink := by
  intro call state
  cases call <;> rfl

/-- What every call keeps a unit keeps. -/
theorem deliver_keeps (unit : SourceUnit) {state : σ} (hstate : P state) :
    P (sink.deliver unit state).2.1 := by
  have hdeliver := (forwards_restrict hcall).deliver unit ⟨state, hstate⟩
  rw [hdeliver]
  exact ((sink.restrict P hcall).deliver unit ⟨state, hstate⟩).2.1.2

end Keeps

/-- A unit leaves its sink as its calls do. -/
theorem deliver_eq_after (sink : Sink σ) (unit : SourceUnit) (state : σ) :
    (sink.deliver unit state).2.1 = sink.after ((sink.trace unit state).map Prod.fst) state := by
  have hkeeps : ∀ call (watched : σ × Trace),
      watched.1 = sink.after (watched.2.map Prod.fst) state →
      (sink.traced.call call watched).2.1 =
        sink.after ((sink.traced.call call watched).2.2.map Prod.fst) state := by
    rintro call ⟨reached, trace⟩ hreached
    rw [call_traced, List.map_append, after_append, ← hreached]
    rfl
  have hdelivered : (sink.traced.deliver unit (state, [])).2.1.1 =
      sink.after ((sink.traced.deliver unit (state, [])).2.1.2.map Prod.fst) state :=
    deliver_keeps hkeeps unit rfl
  rw [deliver_traced]
  exact hdelivered

theorem IsFaultFree.calls_trace {sink : Sink σ} {state : σ} (hcalm : sink.IsFaultFree state)
    (unit : SourceUnit) :
    (sink.trace unit state).map Prod.fst =
      unit.draft.pieces.map .append ++
        match unit.draft.stop with
        | none => [.flush, .close]
        | some _ => [.abandon] := by
  have hreleased := sink.deliver_released unit state
  rw [hcalm.deliver_eq unit] at hreleased
  have htaken : (unit.draft.pieces.map Trace.taken).map Prod.fst =
      unit.draft.pieces.map SinkCall.append := by
    rw [List.map_map]
    rfl
  unfold SourceUnit.rendered at hreleased
  generalize sink.trace unit state = trace at hreleased ⊢
  -- a complete unit is flushed and closed, any other one is abandoned at once
  cases hstop : unit.draft.stop with
  | none =>
      rw [hstop] at hreleased
      cases hreleased with
      | finished _ hfinished =>
          cases hfinished with
          | completed => rw [List.map_append, htaken]; rfl
  | some cause =>
      rw [hstop] at hreleased
      cases hreleased with
      | finished hrendered => cases hrendered
      | malformed => rw [List.map_append, htaken]; rfl

/-! ## Calls that are answered well -/

/-- Related states answer every call alike and stay related. -/
def Simulates (relation : σ → τ → Prop) (abstract : Sink σ) (concrete : Sink τ) : Prop :=
  ∀ call {state : σ} {actual : τ}, relation state actual →
    (concrete.call call actual).1 = (abstract.call call state).1 ∧
      relation (abstract.call call state).2 (concrete.call call actual).2

namespace Simulates

variable {relation : σ → τ → Prop} {abstract : Sink σ} {concrete : Sink τ}
  {state : σ} {actual : τ}

theorem after (h : Simulates relation abstract concrete) (calls : List SinkCall)
    (hrelated : relation state actual) :
    relation (abstract.after calls state) (concrete.after calls actual) := by
  induction calls generalizing state actual with
  | nil => exact hrelated
  | cons call calls ih => exact ih (h call hrelated).2

theorem answers_eq (h : Simulates relation abstract concrete) (calls : List SinkCall)
    (hrelated : relation state actual) :
    concrete.answers calls actual = abstract.answers calls state := by
  induction calls generalizing state actual with
  | nil => rfl
  | cons call calls ih =>
      obtain ⟨hanswer, hnext⟩ := h call hrelated
      rw [answers, answers, hanswer, ih hnext]

end Simulates

end Sink

end Wiring
