import Wiring.Proofs.Draft
import Wiring.Run

/-!
# The log of a run

A run reports the outcome of every unit once, in order. Whatever else it logs is of
interest only when looking for a problem, unless a factory says more of its own when
it takes back the sink of a failed unit.
-/

namespace Wiring

/-- Whether the event is of interest also when there is no problem to be found. -/
def Event.isReport (event : Event) : Bool := event.level != .debug

/-! ## What drafts log -/

/-- All events of the draft are of interest only when looking for a problem. -/
def Draft.IsQuiet (draft : Draft) : Prop :=
  ∀ event, Step.log event ∈ draft.steps → event.level = .debug

namespace Draft.IsQuiet

theorem text (content : String) : (Draft.text content).IsQuiet := by
  intro event hmem
  simp [Draft.text] at hmem

theorem log {event : Event} (hlevel : event.level = .debug) : (Draft.log event).IsQuiet := by
  intro other hmem
  simp only [Draft.log, List.mem_singleton, Step.log.injEq] at hmem
  exact hmem ▸ hlevel

theorem append {first second : Draft} (hfirst : first.IsQuiet) (hsecond : second.IsQuiet) :
    (first ++ second).IsQuiet := by
  change (first.andThen second).IsQuiet
  unfold andThen
  split
  · exact hfirst
  · intro event hmem
    rcases List.mem_append.mp hmem with hmem | hmem
    · exact hfirst event hmem
    · exact hsecond event hmem

theorem concat {drafts : List Draft} (hdrafts : ∀ draft ∈ drafts, draft.IsQuiet) :
    (Draft.concat drafts).IsQuiet := by
  induction drafts with
  | nil =>
      intro event hmem
      cases hmem
  | cons draft drafts ih =>
      obtain ⟨hhead, htail⟩ := List.forall_mem_cons.mp hdrafts
      exact hhead.append (ih htail)

theorem concat_map {α : Type} {f : α → Draft} {xs : List α} (hf : ∀ x ∈ xs, (f x).IsQuiet) :
    (Draft.concat (xs.map f)).IsQuiet := by
  apply concat
  intro draft hmem
  obtain ⟨x, hx, rfl⟩ := List.mem_map.mp hmem
  exact hf x hx

theorem ofDefinition (place : Place) (definition : Definition) :
    (Draft.ofDefinition place definition).IsQuiet := by
  unfold Draft.ofDefinition
  split
  · exact text _
  · intro event hmem
    cases hmem

theorem ofIncludes (references : List ModuleRef) : (Draft.ofIncludes references).IsQuiet := by
  unfold Draft.ofIncludes
  split
  · intro event hmem
    cases hmem
  · exact text _

theorem ofUnit (place : Place) (unit : EmissionUnit) : (Draft.ofUnit place unit).IsQuiet := by
  cases unit with
  | single definition => exact ofDefinition place definition
  | group block =>
      exact ((text _).append (concat_map fun _ _ => ofDefinition place _)).append (text _)

end Draft.IsQuiet

theorem Module.isQuiet_draft (module : Module) (settings : Settings) :
    (module.draft settings).IsQuiet := by
  have hinstance : module.instanceDraft.IsQuiet := by
    unfold instanceDraft
    split
    · exact .text _
    · intro event hmem
      cases hmem
  have hroutine : ∀ routine, (module.routineDraft routine).IsQuiet := by
    intro routine
    have hbody : (Module.routineBody routine).IsQuiet := .concat_map fun _ _ => .ofUnit _ _
    exact (((Draft.IsQuiet.text _).append (.text _)).append hbody).append (.text _)
  have hregistration : (module.registrationDraft settings.capacity).IsQuiet := by
    have hcalls : (module.callsDraft (module.plan settings.capacity)).IsQuiet :=
      .concat_map fun _ _ => .text _
    exact ((((Draft.IsQuiet.log rfl).append hinstance).append hcalls).append (.text _)).append
      (.concat_map fun routine _ => hroutine routine)
  have hopening := ((Draft.IsQuiet.text (Fragment.moduleHeader settings.generatedPackage)).append
    (.text (importLines module.definitions))).append
    (.text (Fragment.fieldOpening module.visibility module.fieldName))
  unfold draft
  refine ((hopening.append (.ofIncludes _)).append ?_).append (.text _)
  split
  · exact .text _
  · exact hregistration

theorem isQuiet_defaultDraft (sources : List Module) (settings : Settings) :
    (defaultDraft sources settings).IsQuiet := by
  have hpool : (Draft.log (poolEvent sources
      (Grouping.ofDefinitions (pooledDefinitions sources)))).IsQuiet := .log rfl
  have hopening := ((hpool.append (.text (Fragment.defaultHeader settings.generatedPackage))).append
    (.text (importLines (pooledDefinitions sources)))).append (.text Fragment.defaultOpening)
  exact (hopening.append (.concat_map fun _ _ => .ofUnit _ _)).append (.text _)

/-- The units of a run log nothing but what helps to find a problem. -/
theorem Metadata.isQuiet_of_mem_jobs {metadata : Metadata} {settings : Settings} {job : Job}
    (hjob : job ∈ metadata.jobs settings) : job.unit.draft.IsQuiet := by
  rcases List.mem_append.mp hjob with hmodule | hdefault
  · obtain ⟨module, _, rfl⟩ := List.mem_map.mp hmodule
    exact module.isQuiet_draft settings
  · obtain rfl := List.mem_singleton.mp hdefault
    exact isQuiet_defaultDraft _ _

/-! ## What sinks log -/

namespace Sink

variable {σ : Type} (sink : Sink σ)

theorem mem_log_takeSteps {steps : List Step} {state : σ} {event : Event}
    (hmem : event ∈ (sink.takeSteps steps state).2.2) : Step.log event ∈ steps := by
  induction steps generalizing state with
  | nil => cases hmem
  | cons step steps ih =>
      cases step with
      | log first =>
          rcases List.mem_cons.mp hmem with rfl | hmem
          · exact List.mem_cons_self
          · exact List.mem_cons_of_mem _ (ih hmem)
      | append text =>
          simp only [takeSteps] at hmem
          generalize sink.append text state = appended at hmem
          rcases appended with ⟨answer, next⟩
          cases answer with
          | ok _ => exact List.mem_cons_of_mem _ (ih hmem)
          | error fault => cases hmem

theorem log_write (unit : String) (draft : Draft) (state : σ) :
    (sink.write unit draft state).2.2 = (sink.takeSteps draft.steps state).2.2 := by
  unfold write
  rcases sink.takeSteps draft.steps state with ⟨answer, next, log⟩
  cases answer <;> cases draft.stop <;> rfl

theorem level_of_mem_log_release {unit : String} {state : σ} {event : Event}
    (hmem : event ∈ (sink.release unit state).2) : event.level = .debug := by
  unfold release at hmem
  generalize sink.abandon state = abandoned at hmem
  rcases abandoned with ⟨answer, next⟩
  cases answer with
  | ok _ => cases hmem
  | error fault =>
      obtain rfl := List.mem_singleton.mp hmem
      rfl

theorem level_of_mem_log_finish {unit : String} {state : σ} {event : Event}
    (hmem : event ∈ (sink.finish unit state).2.2) : event.level = .debug := by
  unfold finish at hmem
  generalize sink.flushAndClose state = closed at hmem
  rcases closed with ⟨answer, next⟩
  cases answer with
  | ok _ => cases hmem
  | error fault => exact sink.level_of_mem_log_release hmem

/-- Delivering a unit logs nothing but what its draft does and what helps to find a
problem with the sink. -/
theorem level_of_mem_log_deliver {unit : SourceUnit} (hquiet : unit.draft.IsQuiet) {state : σ}
    {event : Event} (hmem : event ∈ (sink.deliver unit state).2.2) : event.level = .debug := by
  have hdraft : event ∈ (sink.write unit.name unit.draft state).2.2 → event.level = .debug := by
    rw [log_write]
    intro hmem
    exact hquiet event (sink.mem_log_takeSteps hmem)
  unfold deliver at hmem
  generalize sink.write unit.name unit.draft state = writing at hmem hdraft
  rcases writing with ⟨answer, next, written⟩
  cases answer with
  | ok _ =>
      rcases List.mem_append.mp hmem with hmem | hmem
      · exact hdraft hmem
      · exact sink.level_of_mem_log_finish hmem
  | error failure =>
      rcases List.mem_append.mp hmem with hmem | hmem
      · exact hdraft hmem
      · exact sink.level_of_mem_log_release hmem

end Sink

/-! ## The reports of a run -/

namespace SinkFactory

variable {φ σ : Type} (factory : SinkFactory φ σ)

/-- An event that is of interest only when looking for a problem, or one of the
factory's own on taking back a sink. -/
def IsAside (event : Event) : Prop :=
  event.level = .debug ∨ ∃ fileName opened, event ∈ (factory.discard fileName opened).2

/-- A log that holds the given reports once each and in order, each of them behind events
that are asides. -/
inductive Logged : List Event → List Event → Prop
  /-- Nothing is reported. -/
  | nil : Logged [] []
  /-- The first report comes before the others. -/
  | cons {report : Event} {asides reports log : List Event}
      (hasides : ∀ event ∈ asides, factory.IsAside event) (hrest : Logged reports log) :
      Logged (report :: reports) (asides ++ report :: log)

variable {factory}

theorem isAside_of_mem_attempt {job : Job} (hquiet : job.unit.draft.IsQuiet) {state : φ}
    {event : Event} (hmem : event ∈ (factory.attempt job state).2.2) : factory.IsAside event := by
  unfold attempt at hmem
  cases hopened : factory.openUnit job.fileName state with
  | error refusal => simp [hopened] at hmem
  | ok opened =>
      have hdelivered := @Sink.level_of_mem_log_deliver _ factory.sink _ hquiet opened event
      simp only [hopened] at hmem
      generalize factory.sink.deliver job.unit opened = delivered at hmem hdelivered
      rcases delivered with ⟨result, behind, log⟩
      cases result with
      | ok _ => exact Or.inl (hdelivered hmem)
      | error failure =>
          rcases List.mem_append.mp hmem with hmem | hmem
          · exact Or.inl (hdelivered hmem)
          · exact Or.inr ⟨job.fileName, behind, hmem⟩

/-- A run logs the outcome of every unit. -/
theorem logged_run {jobs : List Job} (hquiet : ∀ job ∈ jobs, job.unit.draft.IsQuiet) (state : φ) :
    factory.Logged
      ((factory.run jobs state).outcomes.map fun (fileName, outcome) =>
        outcomeEvent fileName outcome)
      (factory.run jobs state).log := by
  induction jobs generalizing state with
  | nil => exact .nil
  | cons job jobs ih =>
      obtain ⟨hhead, htail⟩ := List.forall_mem_cons.mp hquiet
      exact .cons (fun _ hmem => isAside_of_mem_attempt hhead hmem) (ih htail _)

/-- Without the asides the log is the reports, provided that the factory itself has
nothing more to say. -/
theorem Logged.filter_eq {reports log : List Event} (hlogged : factory.Logged reports log)
    (hreports : ∀ report ∈ reports, report.isReport = true)
    (hfactory : ∀ fileName opened, ∀ event ∈ (factory.discard fileName opened).2,
      event.level = .debug) :
    log.filter Event.isReport = reports := by
  induction hlogged with
  | nil => rfl
  | @cons report asides reports log hasides hrest ih =>
      obtain ⟨hreport, hreports⟩ := List.forall_mem_cons.mp hreports
      have hnone : asides.filter Event.isReport = [] := by
        apply List.filter_eq_nil_iff.mpr
        intro event hmem
        rcases hasides event hmem with hlevel | ⟨fileName, opened, hmem⟩
        · simp [Event.isReport, hlevel]
        · simp [Event.isReport, hfactory fileName opened event hmem]
      rw [List.filter_append, hnone, List.nil_append, List.filter_cons_of_pos hreport,
        ih hreports]

end SinkFactory

end Wiring
