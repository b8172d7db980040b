import Wiring.Proofs.Draft
import Wiring.Proofs.Sink.Trace
import Wiring.Sink.Memory

/-!
# The release protocol

A unit offers its texts in order until one is refused. A sink that took them all is
flushed and then closed; whatever goes wrong before, the sink is abandoned once and
last, and what went wrong first is what the unit reports. That holds of every sink,
since each of its calls may be answered by a fault.
-/

namespace Wiring

namespace Sink

variable {σ τ : Type}

/-! ## What becomes of the texts -/

/-- How texts are offered: all of them were taken, or the last one offered was
refused. -/
inductive Taken (texts : List String) : Except SystemFault Unit → Trace → Prop
  | all : Taken texts (.ok ()) (texts.map Trace.taken)
  /-- A text was refused, and no text behind it was offered. -/
  | refused {before after : List String} {text : String} {fault : SystemFault}
      (htexts : texts = before ++ text :: after) :
      Taken texts (.error fault) (before.map Trace.taken ++ [(.append text, .error fault)])

theorem Taken.cons {texts : List String} {answer : Except SystemFault Unit} {calls : Trace}
    (h : Taken texts answer calls) (text : String) :
    Taken (text :: texts) answer (Trace.taken text :: calls) := by
  cases h with
  | all => exact .all
  | @refused before after refusedText fault htexts =>
      have hcons : text :: texts = (text :: before) ++ refusedText :: after :=
        congrArg (text :: ·) htexts
      exact .refused hcons

/-- The texts of a draft are offered in order until one is refused. -/
theorem takeSteps_traced (sink : Sink σ) (steps : List Step) (state : σ) (trace : Trace) :
    ∃ calls, (sink.traced.takeSteps steps (state, trace)).2.1.2 = trace ++ calls ∧
      Taken (steps.filterMap Step.text?)
        (sink.traced.takeSteps steps (state, trace)).1 calls := by
  induction steps generalizing state trace with
  | nil => exact ⟨[], (List.append_nil trace).symm, .all⟩
  | cons step steps ih =>
      cases step with
      | log event => exact ih state trace
      | append text =>
          have happend := sink.call_traced (.append text) state trace
          simp only [call] at happend
          simp only [takeSteps, happend]
          rcases sink.append text state with ⟨answer, next⟩
          cases answer with
          | ok _ =>
              obtain ⟨calls, htrace, htaken⟩ := ih next (trace ++ [(.append text, .ok ())])
              refine ⟨Trace.taken text :: calls, ?_, htaken.cons text⟩
              exact htrace.trans (List.append_assoc ..)
          | error fault =>
              exact ⟨[(.append text, .error fault)], rfl, .refused (List.nil_append _).symm⟩

/-! ## The end of a unit -/

/-- How a unit ends whose texts were all taken. -/
inductive Finished (unit : String) : Trace → Except Failure Unit → Prop
  /-- Flushing and closing went well. -/
  | completed : Finished unit [(.flush, .ok ()), (.close, .ok ())] (.ok ())
  /-- Flushing was refused; closing is not attempted. -/
  | flushRefused {fault : SystemFault} {abandoned : Except SystemFault Unit} :
      Finished unit [(.flush, .error fault), (.abandon, abandoned)] (.error (.sink unit fault))
  /-- Closing was refused. -/
  | closeRefused {fault : SystemFault} {abandoned : Except SystemFault Unit} :
      Finished unit [(.flush, .ok ()), (.close, .error fault), (.abandon, abandoned)]
        (.error (.sink unit fault))

theorem release_traced (sink : Sink σ) (unit : String) (state : σ) (trace : Trace) :
    (sink.traced.release unit (state, trace)).1.2 =
      trace ++ [(.abandon, (sink.abandon state).1)] := by
  have habandon := sink.call_traced .abandon state trace
  simp only [call] at habandon
  simp only [release, habandon]
  rcases sink.abandon state with ⟨answer, next⟩
  cases answer <;> rfl

theorem finish_traced (sink : Sink σ) (unit : String) (state : σ) (trace : Trace) :
    ∃ calls, (sink.traced.finish unit (state, trace)).2.1.2 = trace ++ calls ∧
      Finished unit calls (sink.traced.finish unit (state, trace)).1 := by
  have hflush := sink.call_traced .flush state trace
  simp only [call] at hflush
  simp only [finish, flushAndClose, hflush]
  rcases sink.flush state with ⟨answer, flushed⟩
  cases answer with
  | error fault =>
      refine ⟨[(.flush, .error fault), (.abandon, (sink.abandon flushed).1)], ?_, .flushRefused⟩
      simp [release_traced]
  | ok _ =>
      have hclose := sink.call_traced .close flushed (trace ++ [(.flush, .ok ())])
      simp only [call] at hclose
      simp only [hclose]
      rcases sink.close flushed with ⟨answer, closed⟩
      cases answer with
      | ok _ => exact ⟨_, List.append_assoc .., .completed⟩
      | error fault =>
          refine ⟨[(.flush, .ok ()), (.close, .error fault), (.abandon, (sink.abandon closed).1)],
            ?_, .closeRefused⟩
          simp [release_traced]

/-- How a unit leaves its sink. `texts` are the texts that a sink without faults
takes, and `rendered` is what becomes of the unit there. -/
inductive Released (unit : String) (texts : List String) (rendered : Except Failure Unit) :
    Trace → Except Failure Unit → Prop
  /-- Every text was taken. -/
  | finished {calls : Trace} {result : Except Failure Unit} (hrendered : rendered = .ok ())
      (hfinished : Finished unit calls result) :
      Released unit texts rendered (texts.map Trace.taken ++ calls) result
  /-- Every text before a definition without a statement was taken. -/
  | malformed {cause : Malformed} {abandoned : Except SystemFault Unit}
      (hrendered : rendered = .error (.malformed unit cause)) :
      Released unit texts rendered (texts.map Trace.taken ++ [(.abandon, abandoned)])
        (.error (.malformed unit cause))
  | appendRefused {before after : List String} {text : String} {fault : SystemFault}
      {abandoned : Except SystemFault Unit} (htexts : texts = before ++ text :: after) :
      Released unit texts rendered
        (before.map Trace.taken ++ [(.append text, .error fault), (.abandon, abandoned)])
        (.error (.sink unit fault))

end Sink

/-- What becomes of a unit where the sink has no faults. -/
def SourceUnit.rendered (unit : SourceUnit) : Except Failure Unit :=
  match unit.draft.stop with
  | none => .ok ()
  | some cause => .error (.malformed unit.name cause)

namespace Sink

variable {σ τ : Type}

/-- Every unit leaves every sink by the protocol. -/
theorem deliver_released (sink : Sink σ) (unit : SourceUnit) (state : σ) :
    Released unit.name unit.draft.pieces unit.rendered (sink.trace unit state)
      (sink.deliver unit state).1 := by
  rw [deliver_traced, Prod.map_fst, id_eq]
  unfold trace deliver write SourceUnit.rendered
  obtain ⟨calls, htrace, htaken⟩ := sink.takeSteps_traced unit.draft.steps state []
  generalize sink.traced.takeSteps unit.draft.steps (state, []) = taking at htrace htaken ⊢
  rcases taking with ⟨answer, ⟨next, trace⟩, log⟩
  obtain rfl : trace = calls := htrace
  simp only at htaken
  cases htaken with
  | refused htexts =>
      simp only [release_traced, List.append_assoc]
      exact .appendRefused htexts
  | all =>
      cases unit.draft.stop with
      | some cause =>
          simp only [release_traced]
          exact .malformed rfl
      | none =>
          obtain ⟨ending, hending, hfinished⟩ :=
            sink.finish_traced unit.name next (unit.draft.pieces.map Trace.taken)
          simp only [Draft.pieces] at hending hfinished ⊢
          rw [hending]
          exact .finished rfl hfinished

/-- A sink takes the texts of a unit in order, up to some text. -/
theorem received_prefix_pieces (sink : Sink σ) (unit : SourceUnit) (state : σ) :
    sink.received unit state <+: unit.draft.pieces := by
  have hreleased := sink.deliver_released unit state
  unfold received
  generalize sink.trace unit state = trace at hreleased ⊢
  generalize (sink.deliver unit state).1 = result at hreleased
  cases hreleased with
  | @finished calls _ hrendered hfinished =>
      have hrest : Trace.texts calls = [] := by cases hfinished <;> rfl
      have hall := Trace.texts_map_taken_append unit.draft.pieces calls
      rw [hrest, List.append_nil] at hall
      exact hall.symm ▸ List.prefix_refl _
  | @malformed cause abandoned hrendered =>
      have hall := Trace.texts_map_taken_append unit.draft.pieces [(.abandon, abandoned)]
      exact (hall.trans (List.append_nil _)).symm ▸ List.prefix_refl _
  | @appendRefused before after text fault abandoned htexts =>
      rw [Trace.texts_map_taken_append, htexts]
      exact (List.prefix_append_right_inj before).mpr List.nil_prefix

/-- A unit that was completed was complete, and all its calls were answered well. -/
theorem trace_of_deliver_eq_ok {sink : Sink σ} {unit : SourceUnit} {state : σ}
    (hok : (sink.deliver unit state).1 = .ok ()) :
    unit.draft.stop = none ∧
      sink.trace unit state =
        unit.draft.pieces.map Trace.taken ++ [(.flush, .ok ()), (.close, .ok ())] := by
  have hreleased := sink.deliver_released unit state
  rw [hok] at hreleased
  generalize sink.trace unit state = trace at hreleased ⊢
  -- of all the ways to leave a sink only one reports no failure
  cases hreleased with
  | finished hrendered hfinished =>
      cases hfinished with
      | completed =>
          refine ⟨?_, rfl⟩
          cases hstop : unit.draft.stop with
          | none => rfl
          | some cause => simp [SourceUnit.rendered, hstop] at hrendered

/-- A unit that was completed was complete, and the sink took all its texts. -/
theorem received_of_deliver_eq_ok {sink : Sink σ} {unit : SourceUnit} {state : σ}
    (hok : (sink.deliver unit state).1 = .ok ()) :
    unit.draft.stop = none ∧ sink.received unit state = unit.draft.pieces := by
  obtain ⟨hstop, htrace⟩ := trace_of_deliver_eq_ok hok
  rw [received, htrace, Trace.texts_map_taken_append]
  exact ⟨hstop, List.append_nil _⟩

/-! ## Sinks without faults -/

/-- As long as its state is open, a sink takes every text and stays open, and it
lets itself be flushed and then closed. -/
structure AcceptsWhile (sink : Sink σ) (isOpen : σ → Prop) : Prop where
  /-- Texts are taken. -/
  append : ∀ text state, isOpen state →
    (sink.append text state).1 = .ok () ∧ isOpen (sink.append text state).2
  /-- Flushing goes well. -/
  flush : ∀ state, isOpen state → (sink.flush state).1 = .ok () ∧ isOpen (sink.flush state).2
  /-- Closing goes well. -/
  close : ∀ state, isOpen state → (sink.close state).1 = .ok ()

/-- From this state on, no call that completes a unit is refused. -/
def IsFaultFree (sink : Sink σ) (state : σ) : Prop :=
  ∃ isOpen : σ → Prop, sink.AcceptsWhile isOpen ∧ isOpen state

theorem AcceptsWhile.takeSteps {sink : Sink σ} {isOpen : σ → Prop}
    (haccepts : sink.AcceptsWhile isOpen) (steps : List Step) {state : σ} (hopen : isOpen state) :
    (sink.takeSteps steps state).1 = .ok () ∧ isOpen (sink.takeSteps steps state).2.1 := by
  induction steps generalizing state with
  | nil => exact ⟨rfl, hopen⟩
  | cons step steps ih =>
      cases step with
      | log event => exact ih hopen
      | append text =>
          obtain ⟨htaken, hstays⟩ := haccepts.append text state hopen
          simp only [Sink.takeSteps]
          generalize sink.append text state = appended at htaken hstays ⊢
          rcases appended with ⟨answer, next⟩
          obtain rfl : answer = .ok () := htaken
          exact ih hstays

theorem AcceptsWhile.flushAndClose {sink : Sink σ} {isOpen : σ → Prop}
    (haccepts : sink.AcceptsWhile isOpen) {state : σ} (hopen : isOpen state) :
    (sink.flushAndClose state).1 = .ok () := by
  obtain ⟨hflushed, hstays⟩ := haccepts.flush state hopen
  unfold Sink.flushAndClose
  generalize sink.flush state = flushing at hflushed hstays ⊢
  rcases flushing with ⟨answer, next⟩
  obtain rfl : answer = .ok () := hflushed
  exact haccepts.close next hstays

/-- A buffer that was not closed has no faults. -/
theorem isFaultFree_textBuffer : TextBuffer.sink.IsFaultFree {} := by
  refine ⟨fun buffer => buffer.isClosed = false, ⟨?_, ?_, ?_⟩, rfl⟩
  · intro text buffer hopen
    simp [TextBuffer.sink, TextBuffer.append, hopen]
  · intro buffer hopen
    exact ⟨rfl, hopen⟩
  · intro buffer _
    rfl

/-- At a sink without faults a unit is completed, unless a definition stops it. -/
theorem IsFaultFree.deliver_eq {sink : Sink σ} {state : σ} (hcalm : sink.IsFaultFree state)
    (unit : SourceUnit) : (sink.deliver unit state).1 = unit.rendered := by
  obtain ⟨isOpen, haccepts, hopen⟩ := hcalm
  obtain ⟨htaken, hstays⟩ := haccepts.takeSteps unit.draft.steps hopen
  unfold deliver write SourceUnit.rendered
  generalize sink.takeSteps unit.draft.steps state = taking at htaken hstays ⊢
  rcases taking with ⟨answer, next, log⟩
  obtain rfl : answer = .ok () := htaken
  cases unit.draft.stop with
  | some cause => rfl
  | none =>
      have hclosed := haccepts.flushAndClose hstays
      simp only [finish]
      generalize sink.flushAndClose next = closing at hclosed ⊢
      rcases closing with ⟨answer, closed⟩
      obtain rfl : answer = .ok () := hclosed
      rfl

/-- A sink without faults takes all texts of a unit. -/
theorem IsFaultFree.received_eq {sink : Sink σ} {state : σ} (hcalm : sink.IsFaultFree state)
    (unit : SourceUnit) : sink.received unit state = unit.draft.pieces := by
  have hreleased := sink.deliver_released unit state
  have hresult := hcalm.deliver_eq unit
  unfold received
  generalize sink.trace unit state = trace at hreleased ⊢
  generalize (sink.deliver unit state).1 = result at hreleased hresult
  cases hreleased with
  | finished hrendered hfinished =>
      rw [hrendered] at hresult
      subst hresult
      cases hfinished with
      | completed =>
          rw [Trace.texts_map_taken_append]
          exact List.append_nil _
  | malformed hrendered =>
      rw [Trace.texts_map_taken_append]
      exact List.append_nil _
  | appendRefused htexts =>
      -- such a sink reports nothing but definitions without statements
      unfold SourceUnit.rendered at hresult
      split at hresult <;> simp at hresult

/-! ## Abandoning -/

/-- What abandoning answers plays no part in what is reported of a unit. -/
theorem deliver_replace_abandon (sink : Sink σ)
    (abandon : σ → Except SystemFault Unit × σ) (unit : SourceUnit) (state : σ) :
    ({ sink with abandon }.deliver unit state).1 = (sink.deliver unit state).1 := by
  have htake : ∀ steps state,
      ({ sink with abandon } : Sink σ).takeSteps steps state = sink.takeSteps steps state := by
    intro steps
    induction steps with
    | nil => exact fun _ => rfl
    | cons step steps ih =>
        intro state
        cases step <;> simp only [takeSteps, ih]
  have hclose : ∀ state,
      ({ sink with abandon } : Sink σ).flushAndClose state = sink.flushAndClose state :=
    fun _ => rfl
  simp only [deliver, write, finish, htake, hclose]
  rcases sink.takeSteps unit.draft.steps state with ⟨answer, next, log⟩
  cases answer with
  | error fault => rfl
  | ok _ =>
      cases unit.draft.stop with
      | some cause => rfl
      | none =>
          simp only
          rcases sink.flushAndClose next with ⟨answer, closed⟩
          cases answer <;> rfl

/-- The whole protocol, for every unit of a run and every sink. The unit leaves the
sink in one of the ways of `Released`, measured by what a sink without faults takes
and reports. A fault in abandoning changes no report, and a sink reached through a
larger state sees the same calls. -/
theorem deliver_releases_sink (origin : Origin) (settings : Settings) (sink : Sink σ) (state : σ)
    {calm : Sink τ} {start : τ} (hcalm : calm.IsFaultFree start) :
    let unit := origin.sourceUnit settings
    Released origin.name (calm.received unit start) (calm.deliver unit start).1
        (sink.trace unit state) (sink.deliver unit state).1 ∧
      (∀ abandon, ({ sink with abandon }.deliver unit state).1 = (sink.deliver unit state).1) ∧
      ∀ {ρ : Type} (get : ρ → σ) (put : σ → ρ → ρ),
        (∀ inner outer, get (put inner outer) = inner) → ∀ outer,
          (sink.through get put).trace unit outer = sink.trace unit (get outer) ∧
            ((sink.through get put).deliver unit outer).map id (Prod.map get id) =
              sink.deliver unit (get outer) := by
  intro unit
  refine ⟨?_, ?_, ?_⟩
  · rw [hcalm.received_eq, hcalm.deliver_eq, ← origin.name_sourceUnit settings]
    exact sink.deliver_released unit state
  · intro abandon
    exact sink.deliver_replace_abandon abandon unit state
  · intro ρ get put hget outer
    have hforwards := sink.forwards_through hget
    exact ⟨hforwards.trace unit outer, (hforwards.deliver unit outer).symm⟩

/-- A recorder that refuses the second text, and then to be abandoned, beside a number. -/
theorem deliver_releases_sink_of_refusals :
    let origin := Origin.declared (.named "app" "Main")
    let unit := origin.sourceUnit {}
    let recorder : Recorder := { refusals := { append := some 1, abandon := true } }
    let beside := Recorder.sink.through Prod.snd fun recorder (count, _) =>
      ((count : Nat), recorder)
    TextBuffer.sink.IsFaultFree {} ∧
      Released origin.name (TextBuffer.sink.received unit {}) (TextBuffer.sink.deliver unit {}).1
        (Recorder.sink.trace unit recorder) (Recorder.sink.deliver unit recorder).1 ∧
      beside.trace unit (7, recorder) = Recorder.sink.trace unit recorder := by
  intro origin unit recorder beside
  have hreleases := deliver_releases_sink origin {} Recorder.sink recorder isFaultFree_textBuffer
  exact ⟨isFaultFree_textBuffer, hreleases.1,
    (hreleases.2.2 Prod.snd _ (fun _ _ => rfl) (7, recorder)).1⟩

end Sink

end Wiring
