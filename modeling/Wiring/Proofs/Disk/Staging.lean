import Wiring.Proofs.Disk.Directory
import Wiring.Proofs.Disk.Writing
import Wiring.Proofs.Sink.Calls

/-!
# Staged units commit all or nothing

A staged unit collects text until the first call that releases it. Closing it then
makes the text the content of the target, unless it cannot be renamed; giving it up
leaves the target alone. Whatever is called afterwards changes the target no more. So
where nothing but the renaming is denied, the disk and the open file say no more than a
phase does, and every run of calls is known from the phases it goes through. Whatever is
denied, a unit keeps to its own places, and calls that are answered well lead through the
same phases.
-/

namespace Wiring

open Disk

namespace StagedUnit

/-- How far a staged unit has come. -/
inductive Phase where
  /-- The text given so far is on its way to the staging file. -/
  | staging (text : String)
  /-- The text is the content of the target. -/
  | published (text : String)
  /-- The unit was released, and the target was left alone. -/
  | givenUp
deriving DecidableEq, Repr, Inhabited

namespace Phase

/-- Phases as the states of a sink. A fault of the renaming keeps the unit from being
closed. -/
def sink (fault : Option SystemFault) : Sink Phase :=
  { append := fun text phase =>
      match phase with
      | .staging before => (.ok (), .staging (before ++ text))
      | released => (.error .released, released)
    flush := fun phase =>
      match phase with
      | .staging text => (.ok (), .staging text)
      | released => (.error .released, released)
    close := fun phase =>
      match phase with
      | .staging text =>
          match fault with
          | some fault => (.error fault, .givenUp)
          | none => (.ok (), .published text)
      | released => (.error .released, released)
    abandon := fun phase =>
      match phase with
      | .staging _ => (.ok (), .givenUp)
      | released => (.ok (), released) }

/-- The unit was released. -/
def IsReleased (phase : Phase) : Prop := ∀ text, phase ≠ .staging text

theorem call_eq_released {phase : Phase} (hphase : phase.IsReleased) (fault : Option SystemFault)
    {call : SinkCall} (hcall : call ≠ .abandon) :
    (sink fault).call call phase = (.error .released, phase) := by
  cases call with
  | abandon => exact absurd rfl hcall
  | append _ | flush | close =>
      cases phase with
      | staging text => exact absurd rfl (hphase text)
      | published _ | givenUp => rfl

theorem after_appends (fault : Option SystemFault) (texts : List String) (text : String) :
    (sink fault).after (texts.map .append) (.staging text) =
      .staging (text ++ String.join texts) := by
  induction texts generalizing text with
  | nil => simp [Sink.after]
  | cons more texts ih => rw [String.join_cons, ← String.append_assoc, ← ih, List.map_cons]; rfl

theorem abandon_of_ne_published {phase : Phase} (hphase : ∀ text, phase ≠ .published text)
    (fault : Option SystemFault) : ((sink fault).abandon phase).2 = .givenUp := by
  cases phase with
  | published text => exact absurd rfl (hphase text)
  | staging _ | givenUp => rfl

end Phase

/-! ## Staging within a directory -/

/-- A unit of this name can be looked after in the directory. -/
structure Fits (disk : Disk) (directory : Location) (fileName : String) : Prop where
  search : disk.requireSearch directory = .ok ()
  isPlain : Path.IsPlain fileName
  isShort : (stagingName fileName).utf8ByteSize ≤ Path.longestPart

/-- Writing, keeping and removing the staging file of a unit is not denied. -/
structure Granted (disk : Disk) (directory : Location) (fileName : String) : Prop where
  write : ∀ id offset count, disk.denial (.write id offset count) = none
  sync : ∀ id, disk.denial (.sync id) = none
  remove : disk.denial (.remove (stagingName fileName :: directory)) = none

/-- Why the staging file of a unit cannot take the name of its target. -/
def renameFault (disk : Disk) (directory : Location) (fileName : String) : Option SystemFault :=
  if disk.isDirectory (fileName :: directory) then some .isDirectory
  else
    (disk.denial (.rename (stagingName fileName :: directory) (fileName :: directory))).map
      Denial.fault

theorem renameFault_eq_none_iff {disk : Disk} {directory : Location} {fileName : String} :
    renameFault disk directory fileName = none ↔
      disk.isDirectory (fileName :: directory) = false ∧
        disk.denial (.rename (stagingName fileName :: directory) (fileName :: directory)) =
          none := by
  unfold renameFault
  cases disk.isDirectory (fileName :: directory) <;> simp

/-- What a phase says of a disk and of a unit that was staged when the disk was
`before`. -/
def Phase.Shows (before : Disk) (directory : Location) (fileName : String) :
    Phase → Disk × StagedUnit → Prop
  | .staging text, (disk, staged) =>
      (∃ file : OpenFile, staged = { directory, fileName, file := some file } ∧
        file.Holds disk (stagingName fileName :: directory) text.toUTF8) ∧
      before.Confined [stagingName fileName :: directory] disk
  | .published text, (disk, staged) =>
      staged = { directory, fileName, file := none, isCommitted := true } ∧
      disk.get? (stagingName fileName :: directory) = none ∧
      disk.content? (fileName :: directory) = some text.toUTF8 ∧
      before.Confined [stagingName fileName :: directory, fileName :: directory] disk
  | .givenUp, (disk, staged) =>
      staged = { directory, fileName, file := none } ∧
      disk.isDirectory (stagingName fileName :: directory) = false ∧
      before.Confined [stagingName fileName :: directory] disk

/-- What can be said of a unit and its disk whatever was called and denied: the file that
is open is the staging file, and nothing but the places of the unit was touched. -/
def Tracks (before : Disk) (directory : Location) (fileName : String)
    (state : Disk × StagedUnit) : Prop :=
  (state.2.directory = directory ∧ state.2.fileName = fileName) ∧
  (∀ file, state.2.file = some file →
    file.IsAt state.1 (stagingName fileName :: directory)) ∧
  before.Confined [stagingName fileName :: directory, fileName :: directory] state.1

section Fits

variable {before disk : Disk} {directory : Location} {fileName : String}

theorem not_below_staging (directory : Location) (fileName : String) :
    Location.isBelow (fileName :: directory) (stagingName fileName :: directory) = false := by
  rw [Location.isBelow_sibling]
  exact decide_eq_false (stagingName_ne fileName)

theorem staging_not_below (directory : Location) (fileName : String) :
    Location.isBelow (stagingName fileName :: directory) (fileName :: directory) = false := by
  rw [Location.isBelow_sibling]
  exact decide_eq_false (stagingName_ne fileName).symm

theorem Fits.target_isShort (hfits : Fits before directory fileName) :
    fileName.utf8ByteSize ≤ Path.longestPart := by
  have hshort := hfits.isShort
  simp only [stagingName, String.utf8ByteSize_append] at hshort
  omega

/-- Staging a unit takes nothing away from its directory. -/
theorem Fits.of_confined (hfits : Fits before directory fileName)
    (hconfined : before.Confined [stagingName fileName :: directory, fileName :: directory] disk) :
    Fits disk directory fileName := by
  refine ⟨?_, hfits.isPlain, hfits.isShort⟩
  rw [hconfined.requireSearch_eq, hfits.search]
  simp [Location.isBelow_cons_self]

theorem get?_target_of_confined
    (hconfined : before.Confined [stagingName fileName :: directory] disk) :
    disk.get? (fileName :: directory) = before.get? (fileName :: directory) := by
  apply hconfined.same
  simpa using not_below_staging directory fileName

/-! ### Creating -/

/-- What is created is an empty file. -/
theorem shows_create {result : Nat × Disk} (hsearch : before.requireSearch directory = .ok ())
    (hname : Path.IsPlain fileName) (hshort : (stagingName fileName).utf8ByteSize ≤ Path.longestPart)
    (hunlinked : before.Unlinked (stagingName fileName :: directory))
    (hcreate : before.create directory (stagingName fileName) = .ok result) :
    (Phase.staging "").Shows before directory fileName
      (result.2, { directory, fileName, file := some { id := result.1 } }) := by
  rw [create_eq hsearch hname.stagingName hshort hunlinked.not_link] at hcreate
  cases hthere : before.get? (stagingName fileName :: directory) with
  | none =>
      rw [hthere] at hcreate
      cases hask : before.ask (.makeFile (stagingName fileName :: directory)) with
      | error fault => simp [hask, Except.map] at hcreate
      | ok _ =>
          obtain rfl : _ = result := by simpa [hask, Except.map] using hcreate
          exact ⟨⟨_, rfl, .empty, ⟨before.sole_putFile _ _ _, rfl⟩, rfl⟩,
            before.confined_putFile _ _ _⟩
  | some entry =>
      rw [hthere] at hcreate
      cases entry with
      | directory | link _ => cases hcreate
      | file id content =>
          have hsole := hunlinked.sole id content hthere
          cases hask : before.ask (.replace (stagingName fileName :: directory)) with
          | error fault => simp [hask, Except.map] at hcreate
          | ok _ =>
              obtain rfl : _ = result := by simpa [hask, Except.map] using hcreate
              exact ⟨⟨_, rfl, .empty, ⟨hsole.modify _, rfl⟩, rfl⟩, confined_modify hsole _⟩

/-- A staging file is created unless a directory has its name or the system denies it. -/
theorem Fits.create_eq_ok (hfits : Fits before directory fileName)
    (hunlinked : before.Unlinked (stagingName fileName :: directory))
    (hstaging : before.isDirectory (stagingName fileName :: directory) = false)
    (hmake : before.denial (.makeFile (stagingName fileName :: directory)) = none)
    (hreplace : before.denial (.replace (stagingName fileName :: directory)) = none) :
    ∃ opened, create directory fileName before = .ok opened ∧
      (Phase.staging "").Shows before directory fileName opened := by
  have hcreated : ∃ result, before.create directory (stagingName fileName) = .ok result := by
    rw [create_eq hfits.search hfits.isPlain.stagingName hfits.isShort hunlinked.not_link,
      ask_eq_ok_iff.mpr hmake, ask_eq_ok_iff.mpr hreplace]
    cases hthere : before.get? (stagingName fileName :: directory) with
    | none => exact ⟨_, rfl⟩
    | some entry =>
        cases entry with
        | directory => exact absurd hthere (isDirectory_eq_false_iff.mp hstaging)
        | link target => exact absurd hthere (hunlinked.not_link target)
        | file id content => exact ⟨_, rfl⟩
  obtain ⟨result, hresult⟩ := hcreated
  refine ⟨_, ?_, shows_create hfits.search hfits.isPlain hfits.isShort hunlinked hresult⟩
  unfold create
  rw [hresult]
  rfl

/-! ### Renaming and removing -/

/-- The staging file takes the name of the target unless there is a reason why not. -/
theorem Fits.publish_eq (hfits : Fits disk directory fileName) {file : OpenFile}
    (hat : file.IsAt disk (stagingName fileName :: directory)) (staged : StagedUnit)
    (hdirectory : staged.directory = directory) (hname : staged.fileName = fileName) :
    staged.publish file disk = (disk.ask (.sync file.id)).bind fun _ =>
      match renameFault disk directory fileName with
      | some fault => .error fault
      | none => .ok (disk.move (stagingName fileName :: directory) (fileName :: directory)) := by
  obtain ⟨content, hsole⟩ := hat
  have hother : ∀ content', disk.get? (fileName :: directory) ≠ some (.file file.id content') := by
    intro content' hthere
    have hsame := hsole.alone _ content' hthere
    exact stagingName_ne fileName (List.cons.inj hsame).1.symm
  subst hdirectory hname
  unfold publish renameFault
  rw [rename_eq hfits.search hfits.isPlain.stagingName hfits.isShort hfits.isPlain
    hfits.target_isShort hsole.get?_eq hother]
  refine congrArg ((disk.ask (.sync file.id)).bind) (funext fun _ => ?_)
  cases disk.isDirectory (staged.fileName :: staged.directory) with
  | true => rfl
  | false =>
      simp only [Bool.false_eq_true, if_false, ask]
      cases disk.denial
        (.rename (stagingName staged.fileName :: staged.directory)
          (staged.fileName :: staged.directory)) <;> rfl

/-- Removing the staging file takes it away or leaves all as it is. -/
theorem Fits.removeStaging_cases (hfits : Fits disk directory fileName) (staged : StagedUnit)
    (hdirectory : staged.directory = directory) (hname : staged.fileName = fileName) :
    (staged.removeStaging disk).2 = disk ∨
      (staged.removeStaging disk).2 = disk.erase (stagingName fileName :: directory) := by
  subst hdirectory hname
  unfold StagedUnit.removeStaging
  rw [remove_eq hfits.search hfits.isPlain.stagingName hfits.isShort]
  cases disk.get? (stagingName staged.fileName :: staged.directory) with
  | none => exact Or.inl rfl
  | some entry =>
      cases entry with
      | directory => exact Or.inl rfl
      | link _ | file _ _ =>
          cases disk.ask (.remove (stagingName staged.fileName :: staged.directory)) with
          | ok _ => exact Or.inr rfl
          | error fault =>
              left
              simp only [Except.map]
              split <;> simp_all

theorem Fits.confined_removeStaging (hfits : Fits disk directory fileName) {staged : StagedUnit}
    (hdirectory : staged.directory = directory) (hname : staged.fileName = fileName) :
    disk.Confined [stagingName fileName :: directory] (staged.removeStaging disk).2 := by
  rcases hfits.removeStaging_cases staged hdirectory hname with heq | heq
  · rw [heq]
    exact .refl _ _
  · rw [heq]
    exact disk.confined_erase _ _

/-- Where it is not denied, no staging file is left. -/
theorem Fits.removeStaging_eq_ok (hfits : Fits disk directory fileName)
    (hremove : disk.denial (.remove (stagingName fileName :: directory)) = none)
    (hstaging : disk.isDirectory (stagingName fileName :: directory) = false)
    {staged : StagedUnit} (hdirectory : staged.directory = directory)
    (hname : staged.fileName = fileName) :
    (staged.removeStaging disk).1 = .ok () ∧
      (staged.removeStaging disk).2.get? (stagingName fileName :: directory) = none := by
  subst hdirectory hname
  have hgone := disk.get?_erase_of_below (List.cons_ne_nil _ _)
    (Location.isBelow_self (stagingName staged.fileName :: staged.directory))
  unfold StagedUnit.removeStaging
  rw [remove_eq hfits.search hfits.isPlain.stagingName hfits.isShort,
    ask_eq_ok_iff.mpr hremove]
  cases hthere : disk.get? (stagingName staged.fileName :: staged.directory) with
  | none => exact ⟨rfl, hthere⟩
  | some entry =>
      cases entry with
      | directory => exact absurd hthere (isDirectory_eq_false_iff.mp hstaging)
      | link _ | file _ _ => exact ⟨rfl, hgone⟩

/-! ### Calls, whatever is denied -/

theorem mono_staging {first second : Disk}
    (h : first.Confined [stagingName fileName :: directory] second) :
    first.Confined [stagingName fileName :: directory, fileName :: directory] second :=
  h.mono (by simp)

/-- Once the staging file was let go, every call but giving up is refused and changes
nothing. -/
theorem call_of_file_eq_none {state : Disk × StagedUnit} (hfile : state.2.file = none)
    {call : SinkCall} (hcall : call ≠ .abandon) :
    StagedUnit.sink.call call state = (.error .released, state) := by
  obtain ⟨disk, staged⟩ := state
  change staged.file = none at hfile
  cases call with
  | append text => simp [Sink.call, StagedUnit.sink, append, hfile]
  | flush => simp [Sink.call, StagedUnit.sink, flush, hfile]
  | close => simp [Sink.call, StagedUnit.sink, close, hfile]
  | abandon => exact absurd rfl hcall

/-- A unit that let its staging file go keeps to its places if its disk does. -/
theorem tracks_released
    (hconfined : before.Confined [stagingName fileName :: directory, fileName :: directory] disk)
    (isCommitted : Bool) :
    Tracks before directory fileName
      (disk, { directory, fileName, file := none, isCommitted }) := by
  refine ⟨⟨rfl, rfl⟩, ?_, hconfined⟩
  rintro file ⟨⟩

theorem tracks_open {file : OpenFile} {later : OpenFile × Disk}
    (hconfined : before.Confined [stagingName fileName :: directory, fileName :: directory] disk)
    (hsteps : file.Steps (stagingName fileName :: directory) disk later) (isCommitted : Bool) :
    Tracks before directory fileName
      (later.2, { directory, fileName, file := some later.1, isCommitted }) := by
  refine ⟨⟨rfl, rfl⟩, ?_, hconfined.trans (mono_staging hsteps.2.2)⟩
  rintro _ ⟨⟩
  exact hsteps.2.1

theorem Fits.tracks_abandon (hfits : Fits before directory fileName) {state : Disk × StagedUnit}
    (htracks : Tracks before directory fileName state) :
    Tracks before directory fileName (StagedUnit.abandon state).2 := by
  obtain ⟨disk, ⟨directory', fileName', file?, isCommitted⟩⟩ := state
  obtain ⟨⟨hdirectory, hname⟩, hopen, hconfined⟩ := htracks
  dsimp only at hdirectory hname hopen hconfined
  subst hdirectory hname
  have hgiveUp : ∀ dropped : Disk,
      before.Confined [stagingName fileName' :: directory', fileName' :: directory'] dropped →
      Tracks before directory' fileName'
        (StagedUnit.abandon (dropped, { directory := directory', fileName := fileName',
                                        file := none, isCommitted })).2 := by
    intro dropped hdropped
    cases isCommitted with
    | true => exact tracks_released hdropped _
    | false =>
        exact tracks_released (hdropped.trans
          (mono_staging ((hfits.of_confined hdropped).confined_removeStaging rfl rfl))) _
  cases file? with
  | none => exact hgiveUp disk hconfined
  | some file =>
      exact hgiveUp _ (hconfined.trans (mono_staging (hopen file rfl).drain.2.2))

theorem Phase.Shows.tracks {phase : Phase} {state : Disk × StagedUnit}
    (hshows : phase.Shows before directory fileName state) :
    Tracks before directory fileName state := by
  obtain ⟨disk, staged⟩ := state
  cases phase with
  | staging text =>
      obtain ⟨⟨file, rfl, hholds⟩, hconfined⟩ := hshows
      exact tracks_open (mono_staging hconfined) hholds.isAt.steps_refl _
  | published text =>
      obtain ⟨rfl, _, _, hconfined⟩ := hshows
      exact tracks_released hconfined _
  | givenUp =>
      obtain ⟨rfl, _, hconfined⟩ := hshows
      exact tracks_released (mono_staging hconfined) _

/-! ### Calls that are answered well -/

theorem Phase.file_eq_none {phase : Phase} {state : Disk × StagedUnit}
    (hphase : phase.IsReleased) (hshows : phase.Shows before directory fileName state) :
    state.2.file = none := by
  cases phase with
  | staging text => exact absurd rfl (hphase text)
  | published text =>
      obtain ⟨hstaged, _⟩ := hshows
      rw [hstaged]
  | givenUp =>
      obtain ⟨hstaged, _⟩ := hshows
      rw [hstaged]

/-- Whatever is answered, a unit that is given up was published before or is given up. -/
theorem Fits.shows_abandon (hfits : Fits before directory fileName) {phase : Phase}
    {state : Disk × StagedUnit} (hshows : phase.Shows before directory fileName state)
    (fault : Option SystemFault) :
    ((Phase.sink fault).abandon phase).2.Shows before directory fileName
      (StagedUnit.abandon state).2 := by
  obtain ⟨disk, staged⟩ := state
  have hgiveUp : ∀ disk : Disk, disk.isDirectory (stagingName fileName :: directory) = false →
      before.Confined [stagingName fileName :: directory] disk →
      Phase.givenUp.Shows before directory fileName
        (({ directory, fileName, file := none } : StagedUnit).removeStaging disk |>.2,
          { directory, fileName, file := none }) := by
    intro disk hstaging hconfined
    have hfits' := hfits.of_confined (mono_staging hconfined)
    refine ⟨rfl, ?_, hconfined.trans (hfits'.confined_removeStaging rfl rfl)⟩
    rcases hfits'.removeStaging_cases { directory, fileName, file := none } rfl rfl with
      heq | heq
    · rw [heq, hstaging]
    · rw [heq, isDirectory_eq_false_iff,
        disk.get?_erase_of_below (List.cons_ne_nil _ _) (Location.isBelow_self _)]
      simp
  cases phase with
  | staging text =>
      obtain ⟨⟨file, rfl, hholds⟩, hconfined⟩ := hshows
      obtain ⟨_, ⟨content, hsole⟩, hstep⟩ := hholds.isAt.drain
      exact hgiveUp _ hsole.isDirectory_eq_false (hconfined.trans hstep)
  | published text =>
      obtain ⟨rfl, hrest⟩ := hshows
      exact ⟨rfl, hrest⟩
  | givenUp =>
      obtain ⟨rfl, hstaging, hconfined⟩ := hshows
      exact hgiveUp disk hstaging hconfined

/-- A unit whose staging file took the name of the target is published. -/
theorem shows_published {text : String} {id : Nat}
    (hconfined : before.Confined [stagingName fileName :: directory] disk)
    (hsole : disk.Sole (stagingName fileName :: directory) id text.toUTF8) :
    (Phase.published text).Shows before directory fileName
      (disk.move (stagingName fileName :: directory) (fileName :: directory),
        { directory, fileName, file := none, isCommitted := true }) := by
  have hapart := staging_not_below directory fileName
  have hapart' := not_below_staging directory fileName
  refine ⟨rfl, disk.get?_move_of_below_source hapart hapart' (Location.isBelow_self _), ?_,
    (mono_staging hconfined).trans (disk.confined_move hapart hapart')⟩
  rw [content?, disk.get?_move_target hapart hapart', hsole.get?_eq]

/-- A call that is answered well leads to the phase to which it should. -/
theorem Fits.shows_call_of_ok (hfits : Fits before directory fileName) {phase : Phase}
    {state : Disk × StagedUnit} (hshows : phase.Shows before directory fileName state)
    {call : SinkCall} (hok : (StagedUnit.sink.call call state).1 = .ok ()) :
    ((Phase.sink none).call call phase).2.Shows before directory fileName
      (StagedUnit.sink.call call state).2 := by
  by_cases habandon : call = .abandon
  · subst habandon
    exact hfits.shows_abandon hshows none
  by_cases hphase : phase.IsReleased
  · rw [call_of_file_eq_none (Phase.file_eq_none hphase hshows) habandon] at hok
    cases hok
  obtain ⟨text, rfl⟩ : ∃ text, phase = .staging text := by
    simpa [Phase.IsReleased] using hphase
  obtain ⟨disk, staged⟩ := state
  obtain ⟨⟨file, rfl, hholds⟩, hconfined⟩ := hshows
  cases call with
  | abandon => exact absurd rfl habandon
  | append more =>
      have hlater := hholds.append_of_ok hok
      have hbytes : (text ++ more).toUTF8 = text.toUTF8 ++ more.toUTF8 := String.toByteArray_append
      rw [← hbytes] at hlater
      exact ⟨⟨_, rfl, hlater⟩, hconfined.trans (hholds.isAt.append _).2.2⟩
  | flush =>
      obtain ⟨hwritten, hempty⟩ := hholds.drain_of_ok hok
      exact ⟨⟨_, rfl, hwritten.holds hempty⟩, hconfined.trans hholds.isAt.drain.2.2⟩
  | close =>
      have hdrained := @OpenFile.Holds.drain_of_ok _ _ _ _ hholds
      have hstep := hholds.isAt.drain.2.2
      simp only [Sink.call, sink, StagedUnit.close] at hok ⊢
      generalize file.drain disk = drained at hdrained hstep hok ⊢
      rcases drained with ⟨answer, later, disk'⟩
      cases answer with
      | error fault => cases hok
      | ok _ =>
          obtain ⟨hwritten, _⟩ := hdrained rfl
          have hreached := hconfined.trans hstep
          have hpublish := (hfits.of_confined (mono_staging hreached)).publish_eq hwritten.isAt
            { directory, fileName, file := none } rfl rfl
          simp only [hpublish] at hok ⊢
          cases hsync : disk'.ask (.sync later.id) with
          | error fault => simp [hsync, Except.bind] at hok
          | ok _ =>
              cases hrename : renameFault disk' directory fileName with
              | some fault => simp [hsync, hrename, Except.bind] at hok
              | none => exact shows_published hreached hwritten.sole

/-! ### Calls where nothing but the renaming is denied -/

theorem Granted.of_confined (hgranted : Granted before directory fileName) {places : List Location}
    (hconfined : before.Confined places disk) : Granted disk directory fileName :=
  ⟨hconfined.denial_eq ▸ hgranted.write, hconfined.denial_eq ▸ hgranted.sync,
    hconfined.denial_eq ▸ hgranted.remove⟩

/-- Until the unit is published the reasons why it cannot be stay the same. -/
theorem renameFault_of_confined
    (hconfined : before.Confined [stagingName fileName :: directory] disk) :
    renameFault disk directory fileName = renameFault before directory fileName := by
  unfold renameFault Disk.isDirectory
  rw [get?_target_of_confined hconfined, hconfined.denial_eq]

theorem Fits.abandon_eq_ok (hfits : Fits before directory fileName)
    (hgranted : Granted before directory fileName) {phase : Phase} {state : Disk × StagedUnit}
    (hshows : phase.Shows before directory fileName state) :
    (StagedUnit.abandon state).1 = .ok () ∧
      (StagedUnit.abandon state).2.1.get? (stagingName fileName :: directory) = none := by
  obtain ⟨disk, staged⟩ := state
  cases phase with
  | staging text =>
      obtain ⟨⟨file, rfl, hholds⟩, hconfined⟩ := hshows
      obtain ⟨_, ⟨content, hsole⟩, hstep⟩ := hholds.isAt.drain
      have hreached := hconfined.trans hstep
      exact (hfits.of_confined (mono_staging hreached)).removeStaging_eq_ok
        (hgranted.of_confined hreached).remove hsole.isDirectory_eq_false rfl rfl
  | published text =>
      obtain ⟨rfl, hstaging, _⟩ := hshows
      exact ⟨rfl, hstaging⟩
  | givenUp =>
      obtain ⟨rfl, hstaging, hconfined⟩ := hshows
      exact (hfits.of_confined (mono_staging hconfined)).removeStaging_eq_ok
        (hgranted.of_confined hconfined).remove hstaging rfl rfl

theorem Fits.close_of_granted (hfits : Fits before directory fileName)
    (hgranted : Granted before directory fileName) {text : String} {state : Disk × StagedUnit}
    (hshows : (Phase.staging text).Shows before directory fileName state) :
    let phases := Phase.sink (renameFault before directory fileName)
    (StagedUnit.close state).1 = (phases.close (.staging text)).1 ∧
      (phases.close (.staging text)).2.Shows before directory fileName
        (StagedUnit.close state).2 := by
  have hwell := @Fits.shows_call_of_ok _ _ _ hfits _ _ hshows .close
  obtain ⟨disk, staged⟩ := state
  obtain ⟨⟨file, rfl, hholds⟩, hconfined⟩ := hshows
  have hok : (file.drain disk).1 = .ok () :=
    OpenFile.drain_eq_ok ((hgranted.of_confined hconfined).write file.id)
  obtain ⟨hwritten, _⟩ := hholds.drain_of_ok hok
  have hstep := hholds.isAt.drain.2.2
  have hreached := hconfined.trans hstep
  have hpublish := (hfits.of_confined (mono_staging hreached)).publish_eq hwritten.isAt
    { directory, fileName, file := none } rfl rfl
  rw [renameFault_of_confined hreached,
    ask_eq_ok_iff.mpr ((hgranted.of_confined hreached).sync _)] at hpublish
  intro phases
  simp only [Sink.call, sink, StagedUnit.close] at hwell ⊢
  generalize file.drain disk = drained at hok hwritten hreached hpublish hwell ⊢
  rcases drained with ⟨answer, later, disk'⟩
  obtain rfl : answer = .ok () := hok
  simp only [hpublish, Except.bind] at hwell ⊢
  cases hfault : renameFault before directory fileName with
  | none =>
      simp only [hfault, forall_const] at hwell
      simp only [phases, hfault]
      exact ⟨rfl, hwell⟩
  | some fault =>
      simp only [phases, hfault]
      exact ⟨rfl, rfl, hwritten.sole.isDirectory_eq_false, hreached⟩

/-- Staging a unit in a directory goes through the phases. -/
theorem Fits.simulates (hfits : Fits before directory fileName)
    (hgranted : Granted before directory fileName) :
    Sink.Simulates (fun phase state => phase.Shows before directory fileName state)
      (Phase.sink (renameFault before directory fileName)) StagedUnit.sink := by
  intro call phase state hshows
  by_cases habandon : call = .abandon
  · subst habandon
    refine ⟨(hfits.abandon_eq_ok hgranted hshows).1.trans ?_, hfits.shows_abandon hshows _⟩
    cases phase <;> rfl
  by_cases hphase : phase.IsReleased
  · rw [call_of_file_eq_none (Phase.file_eq_none hphase hshows) habandon,
      Phase.call_eq_released hphase _ habandon]
    exact ⟨rfl, hshows⟩
  obtain ⟨text, rfl⟩ : ∃ text, phase = .staging text := by
    simpa [Phase.IsReleased] using hphase
  have hwell := @Fits.shows_call_of_ok _ _ _ hfits _ _ hshows call
  cases call with
  | abandon => exact absurd rfl habandon
  | close => exact hfits.close_of_granted hgranted hshows
  | append more =>
      obtain ⟨disk, staged⟩ := state
      obtain ⟨⟨file, rfl, hholds⟩, hconfined⟩ := hshows
      have hok : (file.append more.toUTF8 disk).1 = .ok () :=
        OpenFile.append_eq_ok ((hgranted.of_confined hconfined).write file.id) hholds.isAt _
      exact ⟨hok, hwell hok⟩
  | flush =>
      obtain ⟨disk, staged⟩ := state
      obtain ⟨⟨file, rfl, hholds⟩, hconfined⟩ := hshows
      have hok : (file.drain disk).1 = .ok () :=
        OpenFile.drain_eq_ok ((hgranted.of_confined hconfined).write file.id)
      exact ⟨hok, hwell hok⟩

end Fits

end StagedUnit

end Wiring
