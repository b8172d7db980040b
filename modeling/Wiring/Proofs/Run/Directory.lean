import Wiring.Proofs.Disk.Commit
import Wiring.Proofs.Run.Watch

/-!
# Runs into a directory

A directory receives exactly the units that a run keeps in memory: each completed unit
is the content of its file, and a failed one leaves its file as it was. Units do not
meet each other, since their files and staging files all have different names, so a run
settles them one by one.
-/

namespace Wiring

open Disk StagedUnit

/-! ## One unit -/

/-- Nothing that is asked for a unit of this name is denied. -/
structure Disk.Grants (disk : Disk) (directory : Location) (fileName : String) : Prop
    extends StagedUnit.Granted disk directory fileName where
  share : disk.denial (.share directory) = none
  makeFile : disk.denial (.makeFile (stagingName fileName :: directory)) = none
  replace : disk.denial (.replace (stagingName fileName :: directory)) = none
  rename :
    disk.denial (.rename (stagingName fileName :: directory) (fileName :: directory)) = none

/-- The directory can receive a unit of this name: neither the name nor that of the staging
file is in the way, the staging file is no link, and nothing is denied. -/
structure Disk.Receives (disk : Disk) (directory : Location) (fileName : String) : Prop where
  fits : StagedUnit.Fits disk directory fileName
  not_partial : ¬".partial".toList <:+ fileName.toList
  target : disk.isDirectory (fileName :: directory) = false
  staging : disk.isDirectory (stagingName fileName :: directory) = false
  unlinked : disk.Unlinked (stagingName fileName :: directory)
  grants : disk.Grants directory fileName

theorem Disk.Grants.of_denial_eq {before after : Disk} {directory : Location} {fileName : String}
    (hgrants : before.Grants directory fileName) (hdenial : after.denial = before.denial) :
    after.Grants directory fileName := by
  obtain ⟨⟨hwrite, hsync, hremove⟩, hshare, hmake, hreplace, hrename⟩ := hgrants
  rw [← hdenial] at hwrite hsync hremove hshare hmake hreplace hrename
  exact ⟨⟨hwrite, hsync, hremove⟩, hshare, hmake, hreplace, hrename⟩

/-- Where a unit of this name leaves traces, at most. -/
def unitPlaces (directory : Location) (fileName : String) : List Location :=
  [stagingName fileName :: directory, fileName :: directory]

/-- What a unit has made of a directory when it was attempted: a completed unit is the
content of its file, a failed one left it as it was. -/
structure Job.Settled (job : Job) (directory : Location) (before after : Disk) : Prop where
  completed : job.unit.draft.stop = none →
    after.content? (job.fileName :: directory) = some job.unit.draft.fullText.toUTF8
  failed : job.unit.draft.stop ≠ none →
    after.get? (job.fileName :: directory) = before.get? (job.fileName :: directory)
  staging : after.get? (stagingName job.fileName :: directory) = none

section Unit

variable {before : Disk} {directory : Location} {fileName : String}

theorem Disk.Receives.renameFault_eq_none (hreceives : before.Receives directory fileName) :
    renameFault before directory fileName = none :=
  renameFault_eq_none_iff.mpr ⟨hreceives.target, hreceives.grants.rename⟩

theorem Disk.Receives.simulates (hreceives : before.Receives directory fileName) :
    Sink.Simulates (fun phase state => phase.Shows before directory fileName state)
      (Phase.sink none) StagedUnit.sink := by
  rw [← hreceives.renameFault_eq_none]
  exact hreceives.fits.simulates hreceives.grants.toGranted

/-- Where the directory can receive the unit, staging it has no faults. -/
theorem Disk.Receives.isFaultFree (hreceives : before.Receives directory fileName) {text : String}
    {state : Disk × StagedUnit}
    (hshows : (Phase.staging text).Shows before directory fileName state) :
    StagedUnit.sink.IsFaultFree state := by
  have hsimulates := hreceives.simulates
  refine ⟨fun state => ∃ text, (Phase.staging text).Shows before directory fileName state,
    ⟨?_, ?_, ?_⟩, text, hshows⟩
  · rintro more state ⟨text, hshows⟩
    obtain ⟨hanswer, hnext⟩ := hsimulates (.append more) hshows
    exact ⟨hanswer, _, hnext⟩
  · rintro state ⟨text, hshows⟩
    obtain ⟨hanswer, hnext⟩ := hsimulates .flush hshows
    exact ⟨hanswer, _, hnext⟩
  · rintro state ⟨text, hshows⟩
    exact (hsimulates .close hshows).1

theorem Disk.Receives.shows_deliver (hreceives : before.Receives directory fileName)
    {opened : Disk × StagedUnit}
    (hopened : (Phase.staging "").Shows before directory fileName opened) (unit : SourceUnit) :
    Phase.Shows before directory fileName
      (match unit.draft.stop with
        | none => .published unit.draft.fullText
        | some _ => .givenUp)
      (StagedUnit.sink.deliver unit opened).2.1 := by
  have hcalls := (hreceives.isFaultFree hopened).calls_trace unit
  have hshows :=
    hreceives.simulates.after ((StagedUnit.sink.trace unit opened).map Prod.fst) hopened
  rw [← Sink.deliver_eq_after, hcalls, Sink.after_append, Phase.after_appends,
    String.empty_append] at hshows
  cases hstop : unit.draft.stop with
  | none =>
      rw [hstop] at hshows
      exact hshows
  | some cause =>
      rw [hstop] at hshows
      exact hshows

end Unit

/-! ## Files of different names -/

section Apart

variable {before after : Disk} {fileName other : String}

theorem partial_suffix_stagingName (fileName : String) :
    ".partial".toList <:+ (stagingName fileName).toList := by
  rw [toList_stagingName]
  exact (List.suffix_append _ _).trans (List.suffix_cons _ _)

/-- Units of different names have no place in common. -/
theorem unitPlaces_apart (directory : Location) (hne : fileName ≠ other)
    (hname : ¬".partial".toList <:+ fileName.toList)
    (hother : ¬".partial".toList <:+ other.toList) :
    ∀ place ∈ unitPlaces directory fileName, ∀ place' ∈ unitPlaces directory other,
      place.isBelow place' = false := by
  have hstaging : ∀ {target source : String}, ¬".partial".toList <:+ target.toList →
      target ≠ stagingName source := by
    rintro target source htarget rfl
    exact htarget (partial_suffix_stagingName source)
  simp only [unitPlaces, List.forall_mem_cons, Location.isBelow_sibling, decide_eq_false_iff_not]
  exact ⟨⟨fun heq => hne (stagingName_injective heq).symm, hstaging hother, by simp⟩,
    ⟨(hstaging hname).symm, hne.symm, by simp⟩, by simp⟩

theorem not_below_unitPlaces (directory : Location) (fileName : String) :
    ∀ place ∈ unitPlaces directory fileName, directory.isBelow place = false := by
  simp [unitPlaces, Location.isBelow_cons_self]

/-- A unit of another name does not get in the way. -/
theorem Disk.Receives.of_confined {directory : Location}
    (hreceives : before.Receives directory fileName)
    (hother : ¬".partial".toList <:+ other.toList) (hne : fileName ≠ other)
    (hconfined : before.Confined (unitPlaces directory other) after) :
    after.Receives directory fileName := by
  have hapart := unitPlaces_apart directory hne hreceives.not_partial hother
  refine ⟨⟨?_, hreceives.fits.isPlain, hreceives.fits.isShort⟩, hreceives.not_partial, ?_, ?_, ?_,
    hreceives.grants.of_denial_eq hconfined.denial_eq⟩
  · rw [hconfined.requireSearch_eq (not_below_unitPlaces _ _), hreceives.fits.search]
  · rw [hconfined.same.isDirectory_eq (hapart _ (by simp [unitPlaces])), hreceives.target]
  · rw [hconfined.same.isDirectory_eq (hapart _ (by simp [unitPlaces])), hreceives.staging]
  · exact hconfined.unlinked (hapart _ (by simp [unitPlaces])) hreceives.unlinked

end Apart

theorem Job.Settled.congr {job : Job} {directory : Location} {before before' after after' : Disk}
    (hsettled : job.Settled directory before after)
    (hbefore : before'.get? (job.fileName :: directory) = before.get? (job.fileName :: directory))
    (hafter : ∀ place ∈ unitPlaces directory job.fileName, after'.get? place = after.get? place) :
    job.Settled directory before' after' := by
  have htarget := hafter (job.fileName :: directory) (by simp [unitPlaces])
  have hstaging := hafter (stagingName job.fileName :: directory) (by simp [unitPlaces])
  refine ⟨fun hstop => ?_, fun hstop => ?_, ?_⟩
  · rw [Disk.content?, htarget]
    exact hsettled.completed hstop
  · rw [htarget, hbefore, hsettled.failed hstop]
  · rw [hstaging, hsettled.staging]

/-! ## Units of a run -/

namespace OutputDirectory

variable {output : OutputDirectory} {disk : Disk}

theorem attempt_settles {job : Job} (hreceives : disk.Receives output.location job.fileName) :
    (output.factory.attempt job disk).1 = job.unit.rendered ∧
      job.Settled output.location disk (output.factory.attempt job disk).2.1 ∧
      disk.Confined (unitPlaces output.location job.fileName)
        (output.factory.attempt job disk).2.1 := by
  obtain ⟨hfits, hgrants⟩ := And.intro hreceives.fits hreceives.grants
  obtain ⟨opened, hcreate, hopened⟩ := hfits.create_eq_ok hreceives.unlinked hreceives.staging
    hgrants.makeFile hgrants.replace
  have hresult : (output.factory.sink.deliver job.unit opened).1 = job.unit.rendered :=
    (hreceives.isFaultFree hopened).deliver_eq job.unit
  have hshows := hreceives.shows_deliver hopened job.unit
  have hopen : output.factory.openUnit job.fileName disk = .ok opened := by
    simp only [factory, openUnit, ask_eq_ok_iff.mpr hgrants.share, hcreate]
    rfl
  obtain ⟨houtcome, hstate⟩ := SinkFactory.attempt_of_openUnit _ hopen
  rw [hresult] at houtcome hstate
  rw [houtcome, hstate]
  refine ⟨rfl, ?_⟩
  unfold SourceUnit.rendered
  cases hstop : job.unit.draft.stop with
  | none =>
      rw [hstop] at hshows
      obtain ⟨_, hstaging, htarget, hconfined⟩ := hshows
      exact ⟨⟨fun _ => htarget, fun hfailed => absurd hstop hfailed, hstaging⟩, hconfined⟩
  | some cause =>
      rw [hstop] at hshows
      refine ⟨⟨fun hnone => ?_, fun _ => ?_, ?_⟩, hfits.confined_forget hshows.tracks⟩
      · rw [hstop] at hnone
        cases hnone
      · exact (hfits.get?_target_forget hshows).trans (get?_target_of_confined hshows.2.2)
      · exact hfits.get?_staging_forget hgrants.toGranted hshows

/-- Where all units can be received, a run settles each of them. -/
theorem run_settles (jobs : List Job) (hnames : (jobs.map Job.fileName).Nodup)
    (hreceives : ∀ job ∈ jobs, disk.Receives output.location job.fileName) :
    (output.factory.run jobs disk).outcomes =
        jobs.map (fun job => (job.fileName, job.unit.rendered)) ∧
      (∀ job ∈ jobs, job.Settled output.location disk (output.factory.run jobs disk).state) ∧
      disk.Confined (jobs.flatMap fun job => unitPlaces output.location job.fileName)
        (output.factory.run jobs disk).state := by
  -- the units behind the first one find their places as they were
  induction jobs generalizing disk with
  | nil => exact ⟨rfl, by simp, .refl _ _⟩
  | cons job jobs ih =>
      obtain ⟨hjob, hrest⟩ := List.forall_mem_cons.mp hreceives
      rw [List.map_cons, List.nodup_cons] at hnames
      obtain ⟨hnew, hnames⟩ := hnames
      obtain ⟨houtcome, hsettled, hconfined⟩ := attempt_settles hjob
      generalize hmiddle : (output.factory.attempt job disk).2.1 = middle at hsettled hconfined
      have hdifferent : ∀ other ∈ jobs, other.fileName ≠ job.fileName := by
        intro other hmem heq
        exact hnew (heq ▸ List.mem_map_of_mem hmem)
      have hreceives' : ∀ other ∈ jobs, middle.Receives output.location other.fileName := by
        intro other hmem
        exact (hrest other hmem).of_confined hjob.not_partial (hdifferent other hmem) hconfined
      obtain ⟨houtcomes, hothers, hconfined'⟩ := ih hnames hreceives'
      simp only [SinkFactory.run_cons, hmiddle, houtcome, houtcomes, List.map_cons,
        List.flatMap_cons, List.forall_mem_cons, true_and]
      refine ⟨⟨?_, ?_⟩, ?_⟩
      · apply hsettled.congr rfl
        intro place hplace
        apply hconfined'.same
        intro place' hplace'
        obtain ⟨other, hmem, hplace'⟩ := List.mem_flatMap.mp hplace'
        exact unitPlaces_apart _ (hdifferent other hmem).symm hjob.not_partial
          (hrest other hmem).not_partial place hplace place' hplace'
      · intro other hmem
        refine (hothers other hmem).congr ?_ fun _ _ => rfl
        symm
        apply hconfined.same
        exact unitPlaces_apart _ (hdifferent other hmem) (hrest other hmem).not_partial
          hjob.not_partial _ (by simp [unitPlaces])
      · exact (hconfined.mono (List.subset_append_left _ _)).trans
          (hconfined'.mono (List.subset_append_right _ _))

end OutputDirectory

/-! ## Units kept in memory -/

/-- What is kept of a unit that is generated in memory. -/
def Job.kept (job : Job) : List (String × String) :=
  match job.unit.draft.stop with
  | none => [(job.fileName, job.unit.draft.fullText)]
  | some _ => []

theorem TextBuffer.after_appends (texts : List String) (text : String) :
    sink.after (texts.map .append) { text } = { text := text ++ String.join texts } := by
  induction texts generalizing text with
  | nil => simp [Sink.after]
  | cons more texts ih => rw [String.join_cons, ← String.append_assoc, ← ih, List.map_cons]; rfl

namespace UnitStore

theorem attempt_factory (job : Job) (store : UnitStore) :
    (factory.attempt job store).1 = job.unit.rendered ∧
      (factory.attempt job store).2.1 = { units := store.units ++ job.kept } := by
  -- the buffer of the unit does not depend on the store beside it
  have hforwards : Sink.Forwards (fun buffer => (store, buffer)) TextBuffer.sink factory.sink :=
    TextBuffer.sink.forwards_put Prod.snd (fun buffer both => (both.1, buffer))
      (fun _ _ => rfl) (fun _ _ _ => rfl) (store, {})
  have hdeliver := hforwards.deliver job.unit {}
  have hcalm := Sink.isFaultFree_textBuffer
  have hbuffer := Sink.deliver_eq_after TextBuffer.sink job.unit {}
  rw [hcalm.calls_trace, Sink.after_append, TextBuffer.after_appends] at hbuffer
  have hresult : (factory.sink.deliver job.unit (store, {})).1 = job.unit.rendered := by
    rw [hdeliver]
    exact hcalm.deliver_eq job.unit
  have hbehind : (factory.sink.deliver job.unit (store, {})).2.1 =
      (store, (TextBuffer.sink.deliver job.unit {}).2.1) := by
    rw [hdeliver]
    rfl
  have hopen : factory.openUnit job.fileName store = .ok (store, {}) := rfl
  obtain ⟨houtcome, hstate⟩ := SinkFactory.attempt_of_openUnit _ hopen
  rw [houtcome, hstate, hbehind, hresult, hbuffer]
  refine ⟨rfl, ?_⟩
  unfold SourceUnit.rendered Job.kept
  cases job.unit.draft.stop with
  | none => simp [Sink.after, Sink.call, factory, TextBuffer.sink, TextBuffer.close, Draft.fullText]
  | some cause => simp [factory]

theorem run_factory (jobs : List Job) (store : UnitStore) :
    (factory.run jobs store).outcomes = jobs.map (fun job => (job.fileName, job.unit.rendered)) ∧
      (factory.run jobs store).state.units = store.units ++ jobs.flatMap Job.kept := by
  induction jobs generalizing store with
  | nil => simp [SinkFactory.run]
  | cons job jobs ih =>
      obtain ⟨houtcome, hstate⟩ := attempt_factory job store
      obtain ⟨houtcomes, hunits⟩ := ih { units := store.units ++ job.kept }
      simp [SinkFactory.run_cons, houtcome, hstate, houtcomes, hunits]

theorem lookup_kept_of_not_mem {jobs : List Job} {fileName : String}
    (hnew : fileName ∉ jobs.map Job.fileName) :
    (jobs.flatMap Job.kept).lookup fileName = none := by
  apply List.lookup_eq_none_iff.mpr
  intro unit hunit
  obtain ⟨job, hmem, hunit⟩ := List.mem_flatMap.mp hunit
  unfold Job.kept at hunit
  split at hunit
  · obtain rfl := List.mem_singleton.mp hunit
    simp only [bne_iff_ne]
    rintro rfl
    exact hnew (List.mem_map_of_mem hmem)
  · cases hunit

/-- Of units of different names each completed one is found under its name. -/
theorem find?_run_factory {jobs : List Job} (hnames : (jobs.map Job.fileName).Nodup) {job : Job}
    (hmem : job ∈ jobs) (hstop : job.unit.draft.stop = none) :
    (factory.run jobs {}).state.find? job.fileName = some job.unit.draft.fullText := by
  rw [find?, (run_factory jobs {}).2, List.nil_append]
  obtain ⟨before, after, rfl⟩ := List.append_of_mem hmem
  rw [List.map_append, List.nodup_append] at hnames
  have hnew : job.fileName ∉ before.map Job.fileName := fun hbefore =>
    hnames.2.2 _ hbefore _ List.mem_cons_self rfl
  rw [List.flatMap_append, List.lookup_append, lookup_kept_of_not_mem hnew, List.flatMap_cons,
    Job.kept, hstop]
  simp

end UnitStore

/-! ## Runs into a directory and runs in memory -/

theorem RunResult.mem_completed {φ : Type} {result : RunResult φ} {jobs : List Job}
    (houtcomes : result.outcomes = jobs.map fun job => (job.fileName, job.unit.rendered))
    {fileName : String} : fileName ∈ result.completed ↔
      ∃ job ∈ jobs, job.unit.draft.stop = none ∧ job.fileName = fileName := by
  simp only [completed, houtcomes, List.filterMap_map, List.mem_filterMap, Function.comp_apply]
  refine exists_congr fun job => and_congr_right fun _ => ?_
  unfold SourceUnit.rendered
  cases job.unit.draft.stop <;> simp

/-- An entry without regard to the number of a file. -/
def Entry.unnumbered : Entry → Entry
  | file _ content => file 0 content
  | directory => directory
  | link target => link target

/-- What is found at a location, whatever number a file has. -/
def Disk.found? (disk : Disk) (location : Location) : Option Entry :=
  (disk.get? location).map Entry.unnumbered

theorem Disk.found?_of_content?_eq_some {disk : Disk} {location : Location} {content : ByteArray}
    (h : disk.content? location = some content) :
    disk.found? location = some (.file 0 content) := by
  unfold Disk.content? at h
  unfold Disk.found?
  split at h
  next hfile =>
    obtain rfl := Option.some.inj h
    rw [hfile]
    rfl
  next => cases h

section Again

variable {job : Job} {directory : Location} {before middle after : Disk}

theorem Job.Settled.receives (hsettled : job.Settled directory before middle)
    (hreceives : before.Receives directory job.fileName)
    (hsearch : middle.requireSearch directory = .ok ())
    (hdenial : middle.denial = before.denial) : middle.Receives directory job.fileName := by
  refine ⟨⟨hsearch, hreceives.fits.isPlain, hreceives.fits.isShort⟩, hreceives.not_partial,
    ?_, ?_, .of_get?_eq_none hsettled.staging, hreceives.grants.of_denial_eq hdenial⟩
  · apply isDirectory_eq_false_iff.mpr
    cases hstop : job.unit.draft.stop with
    | none =>
        intro hthere
        have hcontent := hsettled.completed hstop
        rw [Disk.content?, hthere] at hcontent
        cases hcontent
    | some cause =>
        rw [hsettled.failed (by simp [hstop])]
        exact isDirectory_eq_false_iff.mp hreceives.target
  · apply isDirectory_eq_false_iff.mpr
    rw [hsettled.staging]
    exact (Option.some_ne_none _).symm

/-- A unit that is settled again is found as it was. -/
theorem Job.Settled.found?_eq (hfirst : job.Settled directory before middle)
    (hagain : job.Settled directory middle after) :
    ∀ place ∈ unitPlaces directory job.fileName, after.found? place = middle.found? place := by
  have hstaging : after.found? (stagingName job.fileName :: directory) =
      middle.found? (stagingName job.fileName :: directory) := by
    rw [Disk.found?, Disk.found?, hfirst.staging, hagain.staging]
  have htarget : after.found? (job.fileName :: directory) =
      middle.found? (job.fileName :: directory) := by
    cases hstop : job.unit.draft.stop with
    | none =>
        rw [found?_of_content?_eq_some (hagain.completed hstop),
          found?_of_content?_eq_some (hfirst.completed hstop)]
    | some cause => rw [Disk.found?, Disk.found?, hagain.failed (by simp [hstop])]
  simp [unitPlaces, hstaging, htarget]

end Again

namespace OutputDirectory

variable {output : OutputDirectory} {disk : Disk}

/-- A run into a directory refines the run in memory. Let the files of all units have
different names under which the directory can receive them. Then the outcomes and the
report are the same. The file of a completed unit holds the text kept in memory, that of
a failed one is as it was, no staging file is left over, and nothing else was touched. A
second run has the same outcomes and leaves everything to be found as it was. -/
theorem run_refines_memory (metadata : Metadata) (settings : Settings)
    (hnames : ((metadata.jobs settings).map Job.fileName).Nodup)
    (hreceives : ∀ job ∈ metadata.jobs settings, disk.Receives output.location job.fileName) :
    let jobs := metadata.jobs settings
    let places := jobs.flatMap fun job => unitPlaces output.location job.fileName
    let kept := UnitStore.factory.run jobs {}
    let written := output.factory.run jobs disk
    let again := output.factory.run jobs written.state
    (written.outcomes = kept.outcomes ∧ written.report = kept.report) ∧
    (∀ fileName ∈ kept.completed, ∃ text, kept.state.find? fileName = some text ∧
      written.state.content? (fileName :: output.location) = some text.toUTF8) ∧
    (∀ job ∈ jobs, job.fileName ∉ kept.completed →
      written.state.get? (job.fileName :: output.location) =
        disk.get? (job.fileName :: output.location)) ∧
    (∀ job ∈ jobs, written.state.get? (stagingName job.fileName :: output.location) = none) ∧
    disk.SameOutside places written.state ∧
    again.outcomes = written.outcomes ∧
    ∀ location, (∀ place ∈ places, location.isBelow place → location = place) →
      again.state.found? location = written.state.found? location := by
  intro jobs places kept written again
  obtain ⟨hkept, hunits⟩ := UnitStore.run_factory jobs {}
  obtain ⟨hwritten, hsettled, hconfined⟩ := run_settles jobs hnames hreceives
  have houtcomes : written.outcomes = kept.outcomes := hwritten.trans hkept.symm
  have hreceives' : ∀ job ∈ jobs, written.state.Receives output.location job.fileName := by
    intro job hmem
    apply (hsettled job hmem).receives (hreceives job hmem) ?_ hconfined.denial_eq
    rw [hconfined.requireSearch_eq, (hreceives job hmem).fits.search]
    intro place hplace
    obtain ⟨other, _, hplace⟩ := List.mem_flatMap.mp hplace
    exact not_below_unitPlaces _ _ place hplace
  obtain ⟨hagain, hsettledAgain, hconfinedAgain⟩ := run_settles jobs hnames hreceives'
  refine ⟨⟨houtcomes, ?_⟩, ?_, ?_, fun job hmem => (hsettled job hmem).staging,
    hconfined.same, hagain.trans hwritten.symm, ?_⟩
  · simp only [RunResult.report, RunResult.failures, RunResult.completed, houtcomes]
  · intro fileName hcompleted
    obtain ⟨job, hmem, hstop, rfl⟩ := (RunResult.mem_completed hkept).mp hcompleted
    exact ⟨_, UnitStore.find?_run_factory hnames hmem hstop, (hsettled job hmem).completed hstop⟩
  · intro job hmem hfailed
    apply (hsettled job hmem).failed
    intro hstop
    exact hfailed ((RunResult.mem_completed hkept).mpr ⟨job, hmem, hstop, rfl⟩)
  · intro location hlocation
    by_cases houtside : ∀ place ∈ places, location.isBelow place = false
    · rw [Disk.found?, Disk.found?, hconfinedAgain.same location houtside]
    · simp only [not_forall, Bool.not_eq_false] at houtside
      obtain ⟨place, hplace, hbelow⟩ := houtside
      obtain rfl := hlocation place hplace hbelow
      obtain ⟨job, hmem, hplace⟩ := List.mem_flatMap.mp hplace
      exact (hsettled job hmem).found?_eq (hsettledAgain job hmem) location hplace

/-- A run with a unit that fails, into a directory with leftovers of earlier runs. -/
theorem run_refines_memory_of_leftovers :
    let metadata : Metadata :=
      { modules := [.named "app" "Main",
          { Module.named "app" "Broken" with
            definitions := [Definition.ofType "app" " " { name := "single" }] }] }
    let disk := ((Disk.empty.putDirectory ["out"]).putFile ["app_BrokenGen.kt", "out"]
      "old".toUTF8).putFile [".app_MainGen.kt.partial", "out"] "package".toUTF8
    let output : OutputDirectory := { path := "out", location := ["out"] }
    let jobs := metadata.jobs {}
    let written := output.factory.run jobs disk
    (jobs.map Job.fileName).Nodup ∧
    (∀ job ∈ jobs, disk.Receives output.location job.fileName) ∧
    (UnitStore.factory.run jobs {}).completed = ["app_MainGen.kt", "KoinDefault.kt"] ∧
    (∃ text, written.state.content? ["app_MainGen.kt", "out"] = some text) ∧
    written.state.get? ["app_BrokenGen.kt", "out"] = disk.get? ["app_BrokenGen.kt", "out"] := by
  intro metadata disk output jobs written
  have hfiles : jobs.map Job.fileName =
      ["app_MainGen.kt", "app_BrokenGen.kt", "KoinDefault.kt"] := rfl
  have hnames : (jobs.map Job.fileName).Nodup := by
    rw [hfiles]
    decide
  have hreceives : ∀ job ∈ jobs, disk.Receives output.location job.fileName := by
    intro job hmem
    have hname := List.mem_map_of_mem (f := Job.fileName) hmem
    generalize job.fileName = fileName at hname ⊢
    rw [hfiles] at hname
    simp only [List.mem_cons, List.not_mem_nil, or_false] at hname
    have hunlinked : disk.Unlinked [stagingName fileName, "out"] := by
      rcases hname with rfl | rfl | rfl
      · exact (Disk.sole_putFile _ _ _ _).unlinked
      · exact .of_get?_eq_none rfl
      · exact .of_get?_eq_none rfl
    have hgrants : disk.Grants ["out"] fileName :=
      ⟨⟨fun _ _ _ => rfl, fun _ => rfl, rfl⟩, rfl, rfl, rfl, rfl⟩
    rcases hname with rfl | rfl | rfl <;>
      exact ⟨⟨rfl, ⟨by decide, by decide, by decide, by decide, by decide⟩, by decide⟩, by decide,
        rfl, rfl, hunlinked, hgrants⟩
  have hcompleted : (UnitStore.factory.run jobs {}).completed =
      ["app_MainGen.kt", "KoinDefault.kt"] := by
    decide +kernel
  obtain ⟨_, hfound, hfailed, _⟩ := run_refines_memory metadata {} hnames hreceives
  refine ⟨hnames, hreceives, hcompleted, ?_, ?_⟩
  · obtain ⟨text, _, hcontent⟩ := hfound "app_MainGen.kt" (by rw [hcompleted]; decide)
    exact ⟨_, hcontent⟩
  · refine hfailed ⟨"app_BrokenGen.kt", _⟩ (List.mem_cons_of_mem _ List.mem_cons_self) ?_
    rw [hcompleted]
    decide

end OutputDirectory

end Wiring
