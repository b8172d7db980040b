import Wiring.Proofs.Draft
import Wiring.Proofs.Grouping
import Wiring.Proofs.Routine

/-!
# The texts of a source unit

A unit can be written exactly if all its definitions have statements. Its texts are
then those in front of the registrations, the registrations, and those behind them;
in a module the registrations stand in the bodies of its routines, in the default
module they stand in the builder block itself.
-/

namespace Wiring

namespace Module

/-! ## Parts of a module unit -/

/-- The texts up to the modules taken in. -/
def openingTexts (module : Module) (settings : Settings) : List String :=
  [Fragment.moduleHeader settings.generatedPackage, importLines module.definitions,
    Fragment.fieldOpening module.visibility module.fieldName] ++
  if (module.includes.getD []).isEmpty then [] else [includesStatement (module.includes.getD [])]

/-- The construction of the module instance, if there is one. -/
def instanceTexts (module : Module) : List String :=
  (module.instanceType.map Fragment.instanceStatement).toList

/-- The call of a routine of the module. -/
def callText (module : Module) (index : Nat) : String :=
  Fragment.routineCall module.fieldName index module.instanceType

/-- The signature that opens a routine of the module. -/
def headerText (module : Module) (index : Nat) : String :=
  Fragment.routineHeader module.visibility module.fieldName index module.instanceType

/-- The texts of a routine with a body. -/
def routineTexts (module : Module) (index : Nat) (body : List String) : List String :=
  [Fragment.routineGap, module.headerText index] ++ body ++ [Fragment.blockClosing]

/-- The texts of the routines with these bodies, which are numbered from `index` on. -/
def routinesTexts (module : Module) (index : Nat) : List (List String) → List String
  | [] => []
  | body :: bodies =>
      module.routineTexts index body ++ module.routinesTexts (index + 1) bodies

/-- The texts of a unit whose builder block holds `builder` behind the modules taken
in, and whose routines, numbered from zero, have the bodies `bodies`. -/
def layout (module : Module) (settings : Settings) (builder : List String)
    (bodies : List (List String)) : List String :=
  module.openingTexts settings ++ builder ++ [Fragment.blockClosing] ++
    module.routinesTexts 0 bodies ++
    [Fragment.accessor module.visibility module.path module.fieldName]

/-- The module instance and the calls of a module that has definitions. -/
def builderTexts (module : Module) (capacity : Capacity) : List String :=
  if module.definitions.isEmpty then []
  else module.instanceTexts ++ (List.range (module.plan capacity).callCount).map module.callText

/-- The bodies of the routines in order. -/
def routineBodies (module : Module) (capacity : Capacity) : List (List String) :=
  (module.plan capacity).routines.map fun routine =>
    routine.units.flatMap (EmissionUnit.texts (.routine Fragment.instanceName))

/-! ## The texts of a module unit -/

variable {module : Module}

theorem routines_plan (capacity : Capacity) :
    (module.plan capacity).routines =
      cutRoutines capacity 0 (Grouping.ofDefinitions module.definitions).units := by
  rw [plan, RoutinePlan.ofUnits_eq]

theorem routineBodies_eq (module : Module) (capacity : Capacity) :
    module.routineBodies capacity =
      (cutRoutines capacity 0 (Grouping.ofDefinitions module.definitions).units).map fun routine =>
        routine.units.flatMap (EmissionUnit.texts (.routine Fragment.instanceName)) := by
  rw [routineBodies, routines_plan]

/-- Routines are numbered as their bodies are, one by one. -/
theorem flatMap_routineTexts_cutRoutines {α : Type} (bodyOf : List α → List String)
    (capacity : Capacity) (index : Nat) (units : List α) :
    (cutRoutines capacity index units).flatMap
        (fun routine => module.routineTexts routine.index (bodyOf routine.units)) =
      module.routinesTexts index
        ((cutRoutines capacity index units).map fun routine => bodyOf routine.units) := by
  fun_induction cutRoutines capacity index units with
  | case1 => rfl
  | case2 index unit rest ih =>
      rw [List.flatMap_cons, ih]
      rfl

/-- The units of a routine are units of the module. -/
theorem mem_units_of_mem_routines {capacity : Capacity} {routine : Routine EmissionUnit}
    (hroutine : routine ∈ (module.plan capacity).routines) {unit : EmissionUnit}
    (hunit : unit ∈ routine.units) :
    unit ∈ (Grouping.ofDefinitions module.definitions).units := by
  rw [routines_plan] at hroutine
  rw [← flatMap_units_cutRoutines capacity 0 (Grouping.ofDefinitions module.definitions).units]
  exact List.mem_flatMap_of_mem hroutine hunit

theorem stop_instanceDraft : module.instanceDraft.stop = none := by
  unfold instanceDraft
  cases module.instanceType <;> rfl

theorem pieces_instanceDraft : module.instanceDraft.pieces = module.instanceTexts := by
  unfold instanceDraft instanceTexts
  cases module.instanceType <;> rfl

theorem stop_callsDraft (plan : RoutinePlan EmissionUnit) :
    (module.callsDraft plan).stop = none :=
  Draft.stop_concat_map_eq_none.mpr fun _ _ => rfl

theorem pieces_callsDraft (plan : RoutinePlan EmissionUnit) :
    (module.callsDraft plan).pieces = (List.range plan.callCount).map module.callText := by
  unfold callsDraft
  rw [Draft.pieces_concat_map fun _ _ => rfl]
  exact List.flatMap_pure_eq_map _ _

theorem stop_routineDraft_eq_none {routine : Routine EmissionUnit} :
    (module.routineDraft routine).stop = none ↔
      ∀ unit ∈ routine.units, AllStated (.routine Fragment.instanceName) unit.definitions := by
  simp [routineDraft, routineBody, EmissionUnit.stop_ofUnit_eq_none]

theorem pieces_routineDraft {routine : Routine EmissionUnit}
    (hunits : ∀ unit ∈ routine.units, AllStated (.routine Fragment.instanceName) unit.definitions) :
    (module.routineDraft routine).pieces =
      module.routineTexts routine.index
        (routine.units.flatMap (EmissionUnit.texts (.routine Fragment.instanceName))) := by
  have hbody : (routineBody routine).stop = none := by
    apply Draft.stop_concat_map_eq_none.mpr
    intro unit hunit
    exact EmissionUnit.stop_ofUnit_eq_none.mpr (hunits unit hunit)
  have hpieces : (routineBody routine).pieces =
      routine.units.flatMap (EmissionUnit.texts (.routine Fragment.instanceName)) :=
    EmissionUnit.pieces_concat_ofUnit hunits
  unfold routineDraft
  rw [Draft.pieces_append (by simp [hbody]), Draft.pieces_append (by simp), hpieces]
  rfl

/-- The units of all routines are written exactly if all definitions have statements. -/
theorem stop_registrationDraft_eq_none {capacity : Capacity} :
    (module.registrationDraft capacity).stop = none ↔
      AllStated (.routine Fragment.instanceName) module.definitions := by
  have hroutines : (∀ routine ∈ (module.plan capacity).routines, ∀ unit ∈ routine.units,
      AllStated (.routine Fragment.instanceName) unit.definitions) ↔
      ∀ unit ∈ (Grouping.ofDefinitions module.definitions).units,
        AllStated (.routine Fragment.instanceName) unit.definitions := by
    rw [← List.forall_mem_flatMap, routines_plan, flatMap_units_cutRoutines]
  unfold registrationDraft
  simp only [Draft.stop_append_eq_none, Draft.stop_log, Draft.stop_text, stop_instanceDraft,
    stop_callsDraft, Draft.stop_concat_map_eq_none, stop_routineDraft_eq_none, true_and]
  rw [hroutines, Grouping.forall_mem_units_iff]

theorem pieces_registrationDraft {capacity : Capacity}
    (hdefinitions : AllStated (.routine Fragment.instanceName) module.definitions) :
    (module.registrationDraft capacity).pieces =
      module.instanceTexts ++
        (List.range (module.plan capacity).callCount).map module.callText ++
        [Fragment.blockClosing] ++ module.routinesTexts 0 (module.routineBodies capacity) := by
  have hunits : ∀ routine ∈ (module.plan capacity).routines, ∀ unit ∈ routine.units,
      AllStated (.routine Fragment.instanceName) unit.definitions := by
    intro routine hroutine unit hunit
    have hmem := mem_units_of_mem_routines hroutine hunit
    exact Grouping.forall_mem_units_iff.mpr hdefinitions unit hmem
  have hcomplete : ∀ routine ∈ (module.plan capacity).routines,
      (module.routineDraft routine).stop = none := by
    intro routine hroutine
    exact stop_routineDraft_eq_none.mpr (hunits routine hroutine)
  have hroutines : (Draft.concat ((module.plan capacity).routines.map module.routineDraft)).pieces =
      module.routinesTexts 0 (module.routineBodies capacity) := by
    rw [Draft.pieces_concat_map hcomplete,
      List.flatMap_congr fun routine hroutine => pieces_routineDraft (hunits routine hroutine)]
    rw [routineBodies_eq, routines_plan]
    exact flatMap_routineTexts_cutRoutines _ _ _ _
  unfold registrationDraft
  -- whatever stands in front of a part is complete, so no part is dropped
  rw [Draft.pieces_append (by simp [stop_instanceDraft, stop_callsDraft]),
    Draft.pieces_append (by simp [stop_instanceDraft, stop_callsDraft]),
    Draft.pieces_append (by simp [stop_instanceDraft]),
    Draft.pieces_append (by simp), hroutines, pieces_instanceDraft, pieces_callsDraft]
  rfl

/-- Without definitions there is nothing to call and no routine. -/
theorem routineBodies_of_definitions_eq_nil (hempty : module.definitions = [])
    (capacity : Capacity) : module.routineBodies capacity = [] := by
  have hunits : (Grouping.ofDefinitions []).units = [] := rfl
  rw [routineBodies_eq, hempty, hunits, cutRoutines, List.map_nil]

/-- A module unit can be written exactly if each definition has a statement. -/
theorem stop_draft_eq_none {settings : Settings} :
    (module.draft settings).stop = none ↔
      AllStated (.routine Fragment.instanceName) module.definitions := by
  unfold draft
  simp only [Draft.stop_append_eq_none, Draft.stop_text, Draft.stop_ofIncludes, true_and, and_true]
  split
  next hempty =>
    rw [List.isEmpty_iff.mp hempty]
    simp [AllStated]
  next hnonempty => exact stop_registrationDraft_eq_none

/-- The texts of a module unit. -/
theorem pieces_draft {settings : Settings}
    (hdefinitions : AllStated (.routine Fragment.instanceName) module.definitions) :
    (module.draft settings).pieces =
      module.layout settings (module.builderTexts settings.capacity)
        (module.routineBodies settings.capacity) := by
  have hincludes : (Draft.ofIncludes (module.includes.getD [])).pieces =
      if (module.includes.getD []).isEmpty then []
      else [includesStatement (module.includes.getD [])] := by
    unfold Draft.ofIncludes
    split <;> rfl
  have hheader : (Draft.text (Fragment.moduleHeader settings.generatedPackage) ++
      Draft.text (importLines module.definitions)).pieces =
      [Fragment.moduleHeader settings.generatedPackage, importLines module.definitions] := rfl
  have hcomplete : (module.registrationDraft settings.capacity).stop = none :=
    stop_registrationDraft_eq_none.mpr hdefinitions
  unfold draft layout openingTexts builderTexts
  split
  next hempty =>
    -- the builder block is closed at once, and nothing stands between it and the accessor
    rw [routineBodies_of_definitions_eq_nil (List.isEmpty_iff.mp hempty)]
    simp [hheader, hincludes, routinesTexts]
  next hnonempty =>
    simp [hheader, hcomplete, hincludes, pieces_registrationDraft hdefinitions]

end Module

/-! ## The texts of the default unit -/

/-- The texts of the default unit whose builder block holds `registrations`. -/
def defaultLayout (settings : Settings) (sources : List Module) (registrations : List String) :
    List String :=
  [Fragment.defaultHeader settings.generatedPackage, importLines (pooledDefinitions sources),
    Fragment.defaultOpening] ++ registrations ++ [Fragment.blockClosing]

/-- The default unit can be written exactly if each definition of its sources has a
statement without a module instance. -/
theorem stop_defaultDraft_eq_none {settings : Settings} {sources : List Module} :
    (defaultDraft sources settings).stop = none ↔
      AllStated .defaultModule (pooledDefinitions sources) := by
  unfold defaultDraft Grouping.draft
  simp only [Draft.stop_append_eq_none, Draft.stop_text, Draft.stop_log, true_and, and_true,
    Draft.stop_concat_map_eq_none, EmissionUnit.stop_ofUnit_eq_none]
  exact Grouping.forall_mem_units_iff

/-- The texts of the default unit. -/
theorem pieces_defaultDraft {settings : Settings} {sources : List Module}
    (hdefinitions : AllStated .defaultModule (pooledDefinitions sources)) :
    (defaultDraft sources settings).pieces =
      defaultLayout settings sources
        ((Grouping.ofDefinitions (pooledDefinitions sources)).units.flatMap
          (EmissionUnit.texts .defaultModule)) := by
  have hunits := Grouping.forall_mem_units_iff.mpr hdefinitions
  have hgrouping : ((Grouping.ofDefinitions (pooledDefinitions sources)).draft
      .defaultModule).stop = none := by
    apply Draft.stop_concat_map_eq_none.mpr
    intro unit hunit
    exact EmissionUnit.stop_ofUnit_eq_none.mpr (hunits unit hunit)
  unfold defaultDraft defaultLayout
  simp only [Draft.pieces_append, Draft.stop_append_eq_none, Draft.stop_log, Draft.stop_text,
    hgrouping, and_self, Draft.pieces_text]
  unfold Grouping.draft
  rw [EmissionUnit.pieces_concat_ofUnit hunits]
  rfl

/-- A source unit can be written exactly if each of its definitions has a statement
where it stands. -/
theorem Origin.stop_sourceUnit_eq_none {origin : Origin} {settings : Settings} :
    (origin.sourceUnit settings).draft.stop = none ↔
      AllStated origin.place origin.definitions := by
  cases origin with
  | declared module => exact Module.stop_draft_eq_none
  | pooled sources => exact stop_defaultDraft_eq_none

end Wiring
