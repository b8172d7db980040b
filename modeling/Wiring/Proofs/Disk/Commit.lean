import Wiring.Proofs.Disk.Staging

/-!
# Staged units commit all or nothing

Whatever is called on a staged unit, and however often, its target is left alone until
the unit is closed for the first time. From then on the target holds all the text the
unit took, or, if the staging file could not be renamed, what it held before. The staging
file is gone when the unit is.
-/

namespace Wiring.StagedUnit

open Disk

variable {before disk : Disk} {directory : Location} {fileName : String} {phase : Phase}
  {state opened : Disk × StagedUnit}

/-- Only a unit that was published has changed its target. -/
theorem Phase.Shows.get?_target (hshows : phase.Shows before directory fileName state)
    (hphase : ∀ text, phase ≠ .published text) :
    state.1.get? (fileName :: directory) = before.get? (fileName :: directory) := by
  cases phase with
  | staging text => exact get?_target_of_confined hshows.2
  | published text => exact absurd rfl (hphase text)
  | givenUp => exact get?_target_of_confined hshows.2.2

theorem Phase.Shows.isCommitted_eq_false (hshows : phase.Shows before directory fileName state)
    (hphase : ∀ text, phase ≠ .published text) : state.2.isCommitted = false := by
  cases phase with
  | staging text =>
      obtain ⟨⟨file, hstaged, _⟩, _⟩ := hshows
      rw [hstaged]
  | published text => exact absurd rfl (hphase text)
  | givenUp =>
      obtain ⟨hstaged, _⟩ := hshows
      rw [hstaged]

theorem disk_forget (state : Disk × StagedUnit) :
    (forget state).1 = if state.2.isCommitted then state.1 else (abandon state).2.1 := by
  unfold forget
  split
  · rfl
  · rcases abandon state with ⟨answer, disk, staged⟩
    cases answer <;> rfl

/-- Whatever was denied, a unit that is forgotten has kept to its places. -/
theorem Fits.confined_forget (hfits : Fits before directory fileName)
    (htracks : Tracks before directory fileName state) :
    before.Confined [stagingName fileName :: directory, fileName :: directory]
      (StagedUnit.forget state).1 := by
  rw [disk_forget]
  split
  · exact htracks.2.2
  · exact (hfits.tracks_abandon htracks).2.2

/-- A unit that is forgotten leaves its target as it is. -/
theorem Fits.get?_target_forget (hfits : Fits before directory fileName)
    (hshows : phase.Shows before directory fileName state) :
    (StagedUnit.forget state).1.get? (fileName :: directory) =
      state.1.get? (fileName :: directory) := by
  rw [disk_forget]
  by_cases hphase : ∀ text, phase ≠ .published text
  · have hgivenUp := hfits.shows_abandon hshows none
    rw [Phase.abandon_of_ne_published hphase] at hgivenUp
    rw [hshows.isCommitted_eq_false hphase, if_neg Bool.false_ne_true,
      hgivenUp.get?_target (by simp), hshows.get?_target hphase]
  · obtain ⟨text, rfl⟩ := not_forall_not.mp hphase
    obtain ⟨hstaged, _⟩ := hshows
    rw [hstaged, if_pos rfl]

/-- A unit that is forgotten leaves no staging file where that may be removed. -/
theorem Fits.get?_staging_forget (hfits : Fits before directory fileName)
    (hgranted : Granted before directory fileName)
    (hshows : phase.Shows before directory fileName state) :
    (StagedUnit.forget state).1.get? (stagingName fileName :: directory) = none := by
  rw [disk_forget]
  by_cases hphase : ∀ text, phase ≠ .published text
  · rw [hshows.isCommitted_eq_false hphase, if_neg Bool.false_ne_true]
    exact (hfits.abandon_eq_ok hgranted hshows).2
  · obtain ⟨text, rfl⟩ := not_forall_not.mp hphase
    obtain ⟨hstaged, hstaging, _⟩ := hshows
    rw [hstaged, if_pos rfl]
    exact hstaging

end Wiring.StagedUnit
