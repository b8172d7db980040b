import Wiring.Proofs.Run.Log
import Wiring.Proofs.Run.Watch

/-!
# Units of a run do not depend on each other

Where a factory treats a unit by the name of its file alone, a run is its units one
behind the other, each as it would be on its own. No unit is left out, none is
attempted twice, and the report of the run accounts for all of them.
-/

namespace Wiring

namespace SinkFactory

variable {φ σ : Type} {factory : SinkFactory φ σ}

/-- How a unit is treated depends on the name of its file alone: whether and why no sink
is opened for it, and how every call on its sink is answered. -/
def DependsOnName (factory : SinkFactory φ σ) : Prop :=
  ∀ fileName first second,
    match factory.openUnit fileName first, factory.openUnit fileName second with
    | .ok opened, .ok other => factory.sink.Alike opened other
    | .error (failure, _), .error (other, _) => failure = other
    | .ok _, .error _ | .error _, .ok _ => False

/-- The common state plays no part in the outcome of a unit. -/
theorem DependsOnName.attempt_eq (hname : factory.DependsOnName) (job : Job) (first second : φ) :
    (factory.attempt job first).1 = (factory.attempt job second).1 := by
  have hopen := hname job.fileName first second
  unfold attempt
  cases hfirst : factory.openUnit job.fileName first with
  | error refusal =>
      cases hsecond : factory.openUnit job.fileName second with
      | error other => simpa [hfirst, hsecond] using hopen
      | ok other => simp [hfirst, hsecond] at hopen
  | ok opened =>
      cases hsecond : factory.openUnit job.fileName second with
      | error other => simp [hfirst, hsecond] at hopen
      | ok other =>
          simp only [hfirst, hsecond] at hopen ⊢
          have hdeliver := hopen.deliver_eq job.unit
          generalize factory.sink.deliver job.unit opened = delivered at hdeliver ⊢
          generalize factory.sink.deliver job.unit other = delivered' at hdeliver ⊢
          rcases delivered with ⟨result, behind, log⟩
          rcases delivered' with ⟨result', behind', log'⟩
          obtain rfl : result = result' := hdeliver
          cases result <;> rfl

/-- The common state plays no part in what is seen of a unit. -/
theorem DependsOnName.visit_eq (hname : factory.DependsOnName) (job : Job) (first second : φ) :
    factory.visit job first = factory.visit job second := by
  have hopen := hname job.fileName first second
  unfold visit
  cases hfirst : factory.openUnit job.fileName first with
  | error refusal =>
      cases hsecond : factory.openUnit job.fileName second with
      | error other => rfl
      | ok other => simp [hfirst, hsecond] at hopen
  | ok opened =>
      cases hsecond : factory.openUnit job.fileName second with
      | error other => simp [hfirst, hsecond] at hopen
      | ok other =>
          simp only [hfirst, hsecond] at hopen ⊢
          rw [hopen.deliver_eq job.unit, hopen.trace_eq job.unit]

/-! ## A run as its units -/

theorem DependsOnName.outcomes_eq (hname : factory.DependsOnName) (jobs : List Job)
    (start fresh : φ) :
    (factory.run jobs start).outcomes =
      jobs.map fun job => (job.fileName, (factory.attempt job fresh).1) := by
  -- a unit may change the common state, so the units behind it start in any state
  induction jobs generalizing start with
  | nil => rfl
  | cons job jobs ih => simp only [run_cons, ih, List.map_cons, hname.attempt_eq job start fresh]

theorem DependsOnName.watched_eq (hname : factory.DependsOnName) (jobs : List Job)
    (start fresh : φ) (visits : List Visit) :
    (factory.watched.run jobs (start, visits)).state.2 =
      visits ++ jobs.map fun job => factory.visit job fresh := by
  induction jobs generalizing start visits with
  | nil => exact (List.append_nil _).symm
  | cons job jobs ih =>
      simp only [run_cons, attempt_watched, ih, List.map_cons, hname.visit_eq job start fresh,
        List.append_assoc, List.singleton_append]

theorem DependsOnName.history_eq (hname : factory.DependsOnName) (jobs : List Job)
    (start fresh : φ) :
    factory.history jobs start = jobs.map fun job => factory.visit job fresh := by
  rw [history, hname.watched_eq jobs start fresh, List.nil_append]

/-- A run has the outcomes of its units, each generated alone. -/
theorem DependsOnName.outcomes_eq_alone (hname : factory.DependsOnName) (jobs : List Job)
    (start fresh : φ) :
    (factory.run jobs start).outcomes =
      jobs.flatMap fun job => (factory.run [job] fresh).outcomes := by
  rw [hname.outcomes_eq jobs start fresh, List.map_eq_flatMap]
  rfl

/-- In a run a factory sees of every unit what it sees of the unit alone. -/
theorem DependsOnName.history_eq_alone (hname : factory.DependsOnName) (jobs : List Job)
    (start fresh : φ) :
    factory.history jobs start = jobs.flatMap fun job => factory.history [job] fresh := by
  have halone : (fun job => factory.history [job] fresh) = fun job =>
      [factory.visit job fresh] := by
    funext job
    exact hname.history_eq [job] fresh fresh
  rw [hname.history_eq jobs start fresh, List.map_eq_flatMap, halone]

end SinkFactory

/-! ## The report of a run -/

namespace RunResult

variable {φ : Type} {result : RunResult φ}

theorem completed_of_failures_eq_nil (hnone : result.failures = []) :
    result.completed = result.outcomes.map Prod.fst := by
  unfold failures at hnone
  unfold completed
  generalize result.outcomes = outcomes at hnone ⊢
  induction outcomes with
  | nil => rfl
  | cons outcome outcomes ih =>
      rcases outcome with ⟨fileName, answer⟩
      cases answer with
      | ok _ =>
          exact congrArg (fileName :: ·) (ih hnone)
      | error failure => simp at hnone

/-- Without a failure all files are reported, a lone failure is reported as it is, and
several are reported together, in order. -/
theorem report_eq (result : RunResult φ) :
    result.report =
      match result.failures with
      | [] => .ok (result.outcomes.map Prod.fst)
      | [failure] => .error failure
      | failures => .error (.several failures) := by
  unfold report
  cases hfailures : result.failures with
  | nil => simp [completed_of_failures_eq_nil hfailures]
  | cons failure failures => cases failures <;> simp [Failure.ofList]

end RunResult

/-! ## Replacing a module -/

theorem Metadata.jobs_of_modules_eq {metadata : Metadata} {settings : Settings}
    {before after : List Module} {module : Module}
    (hmodules : metadata.modules = before ++ module :: after) :
    metadata.jobs settings =
      before.map (fun module => ⟨module.fileName, module.sourceUnit settings⟩) ++
        ⟨module.fileName, module.sourceUnit settings⟩ ::
          (after.map (fun module => ⟨module.fileName, module.sourceUnit settings⟩) ++
            [⟨settings.defaultFile, defaultUnit metadata.defaultSources settings⟩]) := by
  simp [jobs, hmodules]

/-- What is computed of every unit for itself does not change for the others when one
module is replaced. -/
theorem Metadata.eraseIdx_map_jobs {metadata : Metadata} {before after : List Module}
    {module : Module} (hmodules : metadata.modules = before ++ module :: after) (other : Module)
    (settings : Settings) {α : Type} (f : Job → α) :
    ((({ metadata with modules := before ++ other :: after } : Metadata).jobs settings).map
        f).eraseIdx before.length =
      ((metadata.jobs settings).map f).eraseIdx before.length := by
  rw [jobs_of_modules_eq hmodules, jobs_of_modules_eq rfl]
  simp [List.eraseIdx_append_of_length_le]

/-! ## Isolation -/

namespace SinkFactory

variable {φ σ : Type} {factory : SinkFactory φ σ}

/-- Where a factory depends on file names alone, a run attempts every module in order
and then the default module, once each, and each fares as it does alone with a factory
in any state: its outcome is the same, and so are the calls on its sink. Exactly the
sinks of completed units are taken back as complete. For every unit the run reports once
and in order, with its file, that it was generated, or as a warning why it was not. What
the run returns accounts for all failures. Replacing a module changes nothing for any
other unit. -/
theorem run_isolates_units (hname : factory.DependsOnName) (metadata : Metadata)
    (settings : Settings) (start fresh : φ) :
    let jobs := metadata.jobs settings
    let result := factory.run jobs start
    let watched := factory.watched.run jobs (start, [])
    let reports : List Event := result.outcomes.map fun (fileName, outcome) =>
      match outcome with
      | .ok () => { level := .info, message := "generated unit", fields := [("unit", fileName)] }
      | .error failure =>
          { level := .warn
            message := "unit generation failed"
            fields := [("unit", fileName), ("error", failure.message)] }
    (jobs = metadata.modules.map (fun module => ⟨module.fileName, module.sourceUnit settings⟩) ++
        [⟨settings.defaultFile, defaultUnit metadata.defaultSources settings⟩] ∧
      result = { outcomes := watched.outcomes, state := watched.state.1, log := watched.log }) ∧
    (result.outcomes = jobs.flatMap (fun job => (factory.run [job] fresh).outcomes) ∧
      factory.history jobs start = jobs.flatMap fun job => factory.history [job] fresh) ∧
    (result.outcomes.map Prod.fst = metadata.modules.map Module.fileName ++ [settings.defaultFile] ∧
      (factory.history jobs start).map Visit.fileName = result.outcomes.map Prod.fst) ∧
    (factory.history jobs start).filterMap Visit.completed? = result.completed ∧
    (factory.Logged reports result.log ∧
      ((∀ fileName opened, ∀ event ∈ (factory.discard fileName opened).2, event.level = .debug) →
        result.log.filter Event.isReport = reports)) ∧
    (result.report =
      match result.failures with
      | [] => .ok (result.outcomes.map Prod.fst)
      | [failure] => .error failure
      | failures => .error (.several failures)) ∧
    ∀ before module after other, metadata.modules = before ++ module :: after →
      let changed := ({ metadata with modules := before ++ other :: after } : Metadata).jobs settings
      (factory.run changed start).outcomes.eraseIdx before.length =
          result.outcomes.eraseIdx before.length ∧
        (factory.history changed start).eraseIdx before.length =
          (factory.history jobs start).eraseIdx before.length := by
  intro jobs result watched reports
  have hreports : reports = result.outcomes.map fun (fileName, outcome) =>
      outcomeEvent fileName outcome := by
    refine List.map_congr_left fun entry _ => ?_
    rcases entry with ⟨fileName, outcome⟩
    cases outcome <;> rfl
  have hlogged : factory.Logged reports result.log :=
    hreports ▸ logged_run (fun _ hjob => Metadata.isQuiet_of_mem_jobs hjob) start
  have hshown : ∀ report ∈ reports, report.isReport = true := by
    rw [hreports]
    intro report hmem
    obtain ⟨⟨fileName, outcome⟩, _, rfl⟩ := List.mem_map.mp hmem
    cases outcome <;> rfl
  have hfiles : result.outcomes.map Prod.fst = jobs.map Job.fileName := by
    rw [hname.outcomes_eq jobs start fresh, List.map_map]
    rfl
  refine ⟨⟨rfl, factory.run_watched jobs start []⟩, ⟨hname.outcomes_eq_alone jobs start fresh,
    hname.history_eq_alone jobs start fresh⟩, ⟨?_, ?_⟩, ?_,
    ⟨hlogged, hlogged.filter_eq hshown⟩, result.report_eq, ?_⟩
  · rw [hfiles]
    simp [jobs, Metadata.jobs]
  · rw [hfiles]
    exact factory.map_fileName_watched jobs start []
  · exact factory.filterMap_completed?_watched jobs start []
  · intro before module after other hmodules changed
    rw [hname.outcomes_eq changed start fresh, hname.outcomes_eq jobs start fresh,
      hname.history_eq changed start fresh, hname.history_eq jobs start fresh]
    exact ⟨Metadata.eraseIdx_map_jobs hmodules other settings _,
      Metadata.eraseIdx_map_jobs hmodules other settings _⟩

end SinkFactory

/-! ## Factories that depend on names alone -/

/-- Units kept in memory are all treated the same. -/
theorem UnitStore.dependsOnName_factory : factory.DependsOnName := by
  intro fileName first second
  have hforwards : Sink.Forwards Prod.snd sink TextBuffer.sink :=
    TextBuffer.sink.forwards_through fun _ _ => rfl
  exact hforwards.alike rfl

/-- A recorder refuses what it was told to refuse for the file, and nothing else. -/
theorem Recordings.dependsOnName_factory (refusals : String → Refusals) :
    (factory refusals).DependsOnName := by
  intro fileName first second
  cases hrefused : (refusals fileName).openUnit with
  | true => simp [factory, hrefused]
  | false =>
      have hforwards : Sink.Forwards Prod.snd sink Recorder.sink :=
        Recorder.sink.forwards_through fun _ _ => rfl
      simp only [factory, hrefused, Bool.false_eq_true, if_false]
      exact hforwards.alike rfl

namespace SinkFactory

/-- Four units: one sink is not opened, one refuses a text, one module cannot be written,
and one unit is completed. -/
theorem run_isolates_units_of_refusals :
    let refusals : String → Refusals := fun fileName =>
      { openUnit := fileName = "app_LockedGen.kt"
        append := if fileName = "KoinDefault.kt" then some 2 else none }
    let metadata : Metadata :=
      { modules := [Module.named "app" "Locked", Module.named "app" "Main",
          { Module.named "app" "Broken" with
            definitions := [Definition.ofType "app" " " { name := "single" }] }] }
    let factory := Recordings.factory refusals
    factory.DependsOnName ∧
    (factory.run (metadata.jobs {}) {}).outcomes =
      (metadata.jobs {}).flatMap (fun job => (factory.run [job] {}).outcomes) ∧
    (factory.history (metadata.jobs {}) {}).filterMap Visit.completed? = ["app_MainGen.kt"] ∧
    ((factory.run (metadata.jobs {}) {}).log.filter Event.isReport).map
        (fun event => (event.level, event.message, event.fields.head?)) =
      [(.warn, "unit generation failed", some ("unit", "app_LockedGen.kt")),
        (.info, "generated unit", some ("unit", "app_MainGen.kt")),
        (.warn, "unit generation failed", some ("unit", "app_BrokenGen.kt")),
        (.warn, "unit generation failed", some ("unit", "KoinDefault.kt"))] := by
  intro refusals metadata factory
  have hname := Recordings.dependsOnName_factory refusals
  obtain ⟨_, ⟨houtcomes, _⟩, _, hcompleted, ⟨_, hlog⟩, _⟩ :=
    run_isolates_units hname metadata {} {} {}
  refine ⟨hname, houtcomes, hcompleted.trans ?_, ?_⟩
  · decide +kernel
  · rw [hlog fun _ _ _ hmem => nomatch hmem]
    decide +kernel

end SinkFactory

end Wiring
