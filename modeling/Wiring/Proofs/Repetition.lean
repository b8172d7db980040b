import Wiring.Proofs.Partition
import Wiring.Proofs.Sink.Release

/-!
# Repeated definitions

A definition that is declared again adds nothing to a unit but its import: what is written
behind the imports, and what stops it, depends on the distinct definitions alone. The
imports are those of the definitions as they are declared, repetitions included.
-/

namespace Wiring

/-- Erasing the repetitions again erases nothing. -/
theorem distinctDefinitions_idem (definitions : List Definition) :
    distinctDefinitions (distinctDefinitions definitions) = distinctDefinitions definitions :=
  eraseDups_of_nodup (nodup_eraseDups definitions)

theorem Grouping.ofDefinitions_distinctDefinitions (definitions : List Definition) :
    ofDefinitions (distinctDefinitions definitions) = ofDefinitions definitions := by
  unfold ofDefinitions
  rw [distinctDefinitions_idem]

theorem any_distinctDefinitions (p : Definition → Bool) (definitions : List Definition) :
    (distinctDefinitions definitions).any p = definitions.any p := by
  rw [Bool.eq_iff_iff, List.any_eq_true, List.any_eq_true]
  simp only [distinctDefinitions, List.mem_eraseDups]

theorem isEmpty_distinctDefinitions (definitions : List Definition) :
    (distinctDefinitions definitions).isEmpty = definitions.isEmpty := by
  cases definitions with
  | nil => rfl
  | cons definition definitions => simp [distinctDefinitions, List.eraseDups_cons]

/-! ## What stands behind the imports -/

namespace Module

/-- All that is written for the module behind its imports. -/
def buildingDraft (module : Module) (settings : Settings) : Draft :=
  .text (Fragment.fieldOpening module.visibility module.fieldName) ++
    (.ofIncludes (module.includes.getD []) ++
      ((if module.definitions.isEmpty then .text Fragment.blockClosing
          else module.registrationDraft settings.capacity) ++
        .text (Fragment.accessor module.visibility module.path module.fieldName)))

variable (module : Module) (settings : Settings)

theorem draft_eq : module.draft settings =
    .text (Fragment.moduleHeader settings.generatedPackage) ++
      (.text (importLines module.definitions) ++ module.buildingDraft settings) := by
  simp only [draft, buildingDraft, Draft.append_assoc]

/-- The same module with every definition declared once. -/
abbrev withoutRepetitions : Module :=
  { module with definitions := distinctDefinitions module.definitions }

theorem instanceType_withoutRepetitions :
    module.withoutRepetitions.instanceType = module.instanceType := by
  have hmembers : module.withoutRepetitions.hasMembers = module.hasMembers :=
    any_distinctDefinitions _ _
  unfold instanceType
  rw [hmembers]
  rfl

theorem plan_withoutRepetitions (capacity : Capacity) :
    module.withoutRepetitions.plan capacity = module.plan capacity := by
  unfold plan
  rw [Grouping.ofDefinitions_distinctDefinitions]

theorem registrationDraft_withoutRepetitions (capacity : Capacity) :
    module.withoutRepetitions.registrationDraft capacity =
      module.registrationDraft capacity := by
  unfold registrationDraft instanceDraft callsDraft routineDraft
  simp only [plan_withoutRepetitions, instanceType_withoutRepetitions]
  rfl

theorem buildingDraft_withoutRepetitions :
    module.withoutRepetitions.buildingDraft settings = module.buildingDraft settings := by
  unfold buildingDraft
  rw [registrationDraft_withoutRepetitions, isEmpty_distinctDefinitions]
  rfl

end Module

/-- All that is written for the default unit behind its imports. -/
def defaultBuildingDraft (definitions : List Definition) : Draft :=
  .text Fragment.defaultOpening ++
    ((Grouping.ofDefinitions definitions).draft .defaultModule ++ .text Fragment.blockClosing)

theorem defaultDraft_eq (sources : List Module) (settings : Settings) :
    defaultDraft sources settings =
      .log (poolEvent sources (Grouping.ofDefinitions (pooledDefinitions sources))) ++
        (.text (Fragment.defaultHeader settings.generatedPackage) ++
          (.text (importLines (pooledDefinitions sources)) ++
            defaultBuildingDraft (pooledDefinitions sources))) := by
  simp only [defaultDraft, defaultBuildingDraft, Draft.append_assoc]

namespace Origin

/-- The package and the fixed imports, with which a unit starts. -/
def header (settings : Settings) : Origin → String
  | declared _ => Fragment.moduleHeader settings.generatedPackage
  | pooled _ => Fragment.defaultHeader settings.generatedPackage

/-- All that is written for a unit behind its imports. -/
def buildingDraft (settings : Settings) : Origin → Draft
  | declared module => module.buildingDraft settings
  | pooled sources => defaultBuildingDraft (pooledDefinitions sources)

/-- Both are modules that differ in nothing but their definitions, or both are sources of
the default module. -/
inductive SameFrame : Origin → Origin → Prop
  | declared (module : Module) (definitions : List Definition) :
      SameFrame (declared module) (declared { module with definitions })
  | pooled (sources others : List Module) : SameFrame (pooled sources) (pooled others)

variable {origin other : Origin} {settings : Settings}

theorem pieces_sourceUnit : (origin.sourceUnit settings).draft.pieces =
    [origin.header settings, importLines origin.definitions] ++
      (origin.buildingDraft settings).pieces := by
  cases origin with
  | declared module =>
      change (module.draft settings).pieces = _
      rw [module.draft_eq, Draft.pieces_append rfl, Draft.pieces_append rfl]
      rfl
  | pooled sources =>
      change (defaultDraft sources settings).pieces = _
      rw [defaultDraft_eq, Draft.pieces_append rfl, Draft.pieces_append rfl,
        Draft.pieces_append rfl]
      rfl

theorem stop_sourceUnit :
    (origin.sourceUnit settings).draft.stop = (origin.buildingDraft settings).stop := by
  cases origin with
  | declared module =>
      change (module.draft settings).stop = _
      rw [module.draft_eq, Draft.append_of_stop_eq_none rfl, Draft.append_of_stop_eq_none rfl]
      rfl
  | pooled sources =>
      change (defaultDraft sources settings).stop = _
      rw [defaultDraft_eq, Draft.append_of_stop_eq_none rfl, Draft.append_of_stop_eq_none rfl,
        Draft.append_of_stop_eq_none rfl]
      rfl

namespace SameFrame

theorem name_eq (h : SameFrame origin other) : other.name = origin.name := by
  cases h <;> rfl

theorem header_eq (h : SameFrame origin other) :
    other.header settings = origin.header settings := by
  cases h <;> rfl

/-- Behind the imports nothing shows whether a definition was declared again. -/
theorem buildingDraft_eq (h : SameFrame origin other)
    (hdistinct : other.definitions = distinctDefinitions origin.definitions) :
    other.buildingDraft settings = origin.buildingDraft settings := by
  cases h with
  | declared module definitions =>
      obtain rfl : definitions = distinctDefinitions module.definitions := hdistinct
      exact module.buildingDraft_withoutRepetitions settings
  | pooled sources others =>
      change defaultBuildingDraft (Origin.pooled others).definitions = _
      rw [hdistinct]
      unfold defaultBuildingDraft
      rw [Grouping.ofDefinitions_distinctDefinitions]
      rfl

end SameFrame

end Origin

/-! ## The imports -/

/-- The imports are whole lines, and one empty line where there are none. -/
theorem importLines_eq (definitions : List Definition) :
    let paths := definitions.filterMap fun definition => definition.keyword.importPath
    importLines definitions =
      if paths = [] then "\n"
      else String.join (paths.map fun path => "import " ++ path ++ "\n") := by
  intro paths
  have hlines : (definitions.filterMap fun definition =>
      definition.keyword.importPath.map ("import " ++ ·)) = paths.map ("import " ++ ·) :=
    (List.map_filterMap ..).symm
  unfold importLines
  rw [hlines]
  generalize paths = paths
  cases paths with
  | nil => rfl
  | cons path paths =>
      rw [if_neg (List.cons_ne_nil _ _)]
      induction paths generalizing path with
      | nil => simp
      | cons next paths ih =>
          rw [List.map_cons, String.intercalate_cons_of_ne_nil (by simp), String.append_assoc,
            ih next]
          simp [String.append_assoc]

section Delivery

variable {σ : Type} {calm : Sink σ} {state : σ}

/-- A unit fares the same whether its definitions are given as they are declared or each of
them once, in the order of first occurrence: both succeed, or both fail alike, and the sink
receives the same texts but for the imports. These are one line for every definition whose
keyword needs one, in the order of declaration, however often it comes. -/
theorem deliver_ignores_repetitions {origin other : Origin} (hframe : origin.SameFrame other)
    (hdistinct : FirstValues some origin.definitions other.definitions)
    (hcalm : calm.IsFaultFree state) (settings : Settings) :
    let paths := origin.definitions.filterMap fun definition => definition.keyword.importPath
    (calm.deliver (other.sourceUnit settings) state).1 =
        (calm.deliver (origin.sourceUnit settings) state).1 ∧
      (∃ rest,
        calm.received (origin.sourceUnit settings) state =
          [origin.header settings, importLines origin.definitions] ++ rest ∧
        calm.received (other.sourceUnit settings) state =
          [origin.header settings, importLines other.definitions] ++ rest) ∧
      importLines origin.definitions =
        if paths = [] then "\n"
        else String.join (paths.map fun path => "import " ++ path ++ "\n") := by
  intro paths
  have hdefinitions : other.definitions = distinctDefinitions origin.definitions := by
    have herased := firstValues_eraseDups some origin.definitions
    rw [List.filterMap_some] at herased
    exact hdistinct.eq herased
  have hbuilding : other.buildingDraft settings = origin.buildingDraft settings :=
    hframe.buildingDraft_eq hdefinitions
  refine ⟨?_, ⟨(origin.buildingDraft settings).pieces, ?_, ?_⟩, importLines_eq _⟩
  · rw [hcalm.deliver_eq, hcalm.deliver_eq, SourceUnit.rendered, SourceUnit.rendered,
      Origin.stop_sourceUnit, Origin.stop_sourceUnit, hbuilding, origin.name_sourceUnit,
      other.name_sourceUnit, hframe.name_eq]
  · rw [hcalm.received_eq, Origin.pieces_sourceUnit]
  · rw [hcalm.received_eq, Origin.pieces_sourceUnit, hbuilding, hframe.header_eq]

/-- A member function and a scoped type, each declared twice, and routines of one unit. -/
theorem deliver_ignores_repetitions_of_members :
    let keyword := ({ name := "viewModel" } : Keyword).importedFrom "app.viewModel"
    let member := (Definition.ofFunction "app" "model" keyword).memberOfModule
    let inMenu := (Definition.ofType "app" "Item" { name := "scoped" }).inScope (.named "menu")
    let module := { Module.named "app" "Main" with definitions := [member, inMenu, member, inMenu] }
    let settings : Settings := { capacity := ⟨1, by decide, by decide⟩ }
    let once := { module with definitions := [member, inMenu] }
    FirstValues some module.definitions once.definitions ∧
      TextBuffer.sink.IsFaultFree {} ∧
      (TextBuffer.sink.deliver (once.sourceUnit settings) {}).1 =
        (TextBuffer.sink.deliver (module.sourceUnit settings) {}).1 ∧
      ∃ rest,
        TextBuffer.sink.received (module.sourceUnit settings) {} =
          [Fragment.moduleHeader settings.generatedPackage,
            "import app.viewModel\nimport app.viewModel\n"] ++ rest ∧
        TextBuffer.sink.received (once.sourceUnit settings) {} =
          [Fragment.moduleHeader settings.generatedPackage, "import app.viewModel\n"] ++ rest := by
  intro keyword member inMenu module settings once
  have hdistinct : FirstValues some module.definitions once.definitions :=
    firstValues_eraseDups some module.definitions
  obtain ⟨hresult, hreceived, -⟩ := deliver_ignores_repetitions
    (.declared module [member, inMenu]) hdistinct Sink.isFaultFree_textBuffer settings
  exact ⟨hdistinct, Sink.isFaultFree_textBuffer, hresult, hreceived⟩

end Delivery

end Wiring
