import Wiring.Proofs.Layout

/-!
# Scripts of units

The script of a unit lists what stands in it, whether or not it can be written: fixed
texts, and definitions in the places of their statements. A draft follows its script up
to the first definition without a statement, and stops there.
-/

namespace Wiring

/-- What stands at one place of a unit. -/
inductive Piece where
  /-- A text that does not depend on any statement. -/
  | fixed (content : String)
  | statement (definition : Definition)
deriving DecidableEq, Repr, Inhabited

/-- What is wrong with a definition that has no statement. -/
def Definition.malformed? (place : Place) (definition : Definition) : Option Malformed :=
  match definition.statement place with
  | .ok _ => none
  | .error defect => some ⟨definition.label, defect⟩

namespace Piece

/-- The definition whose statement stands here. -/
def definition? : Piece → Option Definition
  | fixed _ => none
  | statement definition => some definition

/-- The definitions whose statements stand in a script, in order. -/
def definitions (script : List Piece) : List Definition := script.filterMap definition?

/-- The text that stands here, if it can be written. -/
def text? (place : Place) : Piece → Option String
  | fixed content => some content
  | statement definition => definition.statement? place

@[simp] theorem definitions_append (script rest : List Piece) :
    definitions (script ++ rest) = definitions script ++ definitions rest :=
  List.filterMap_append

@[simp] theorem definitions_map_fixed (contents : List String) :
    definitions (contents.map fixed) = [] := by
  induction contents with
  | nil => rfl
  | cons content contents ih => exact ih

@[simp] theorem definitions_map_statement (members : List Definition) :
    definitions (members.map statement) = members := by
  induction members with
  | nil => rfl
  | cons definition members ih => exact congrArg (definition :: ·) ih

theorem definitions_flatMap {α : Type} (f : α → List Piece) (xs : List α) :
    definitions (xs.flatMap f) = xs.flatMap fun x => definitions (f x) :=
  List.filterMap_flatMap

end Piece

/-! ## Following a script -/

/-- How a draft follows a script: to its end, or up to the first definition without a
statement. -/
inductive Draft.Follows (place : Place) (draft : Draft) (script : List Piece) : Prop
  /-- Everything is written. -/
  | complete (hpieces : script.map (Piece.text? place) = draft.pieces.map some)
      (hstop : draft.stop = none)
  /-- What stands in front of a definition is written, and what is wrong with that
  definition is reported. -/
  | stopped {before after : List Piece} {definition : Definition} {malformed : Malformed}
      (hscript : script = before ++ .statement definition :: after)
      (hpieces : before.map (Piece.text? place) = draft.pieces.map some)
      (hmalformed : definition.malformed? place = some malformed)
      (hstop : draft.stop = some malformed)

namespace Draft.Follows

variable {place : Place} {first second draft : Draft} {script rest : List Piece}

theorem empty : Draft.empty.Follows place [] := .complete rfl rfl

theorem text (content : String) : (Draft.text content).Follows place [.fixed content] :=
  .complete rfl rfl

theorem log (event : Event) : (Draft.log event).Follows place [] := .complete rfl rfl

theorem ofDefinition (definition : Definition) :
    (Draft.ofDefinition place definition).Follows place [.statement definition] := by
  cases hstatement : definition.statement place with
  | ok content =>
      apply complete
      · simp [Draft.ofDefinition, hstatement, Piece.text?, Definition.statement?, Except.toOption]
      · simp [Draft.ofDefinition, hstatement]
  | error defect =>
      have hmalformed : definition.malformed? place = some ⟨definition.label, defect⟩ := by
        simp [Definition.malformed?, hstatement]
      apply stopped (List.nil_append _).symm _ hmalformed
      · simp [Draft.ofDefinition, hstatement]
      · simp [Draft.ofDefinition, hstatement, Draft.pieces]

/-- Scripts are followed one behind the other. -/
theorem append (hfirst : first.Follows place script) (hsecond : second.Follows place rest) :
    (first ++ second).Follows place (script ++ rest) := by
  cases hfirst with
  | complete hpieces hstop =>
      have happend := append_of_stop_eq_none hstop second
      have htexts : (first ++ second).pieces = first.pieces ++ second.pieces :=
        pieces_append hstop
      cases hsecond with
      | complete hrest hend =>
          apply complete
          · rw [htexts, List.map_append, List.map_append, hpieces, hrest]
          · rw [happend, hend]
      | @stopped before after definition malformed hscript hbefore hmalformed hend =>
          apply @stopped _ _ _ (script ++ before) after _ _ _ _ hmalformed
          · rw [happend, hend]
          · rw [hscript, List.append_assoc]
          · rw [htexts, List.map_append, List.map_append, hpieces, hbefore]
  | @stopped before after definition malformed hscript hbefore hmalformed hstop =>
      -- the first draft stopped, so the second one is dropped
      have hdropped : first ++ second = first := by
        change first.andThen second = first
        rw [andThen, hstop]
      rw [hdropped]
      apply @stopped _ _ _ before (after ++ rest) _ _ _ hbefore hmalformed hstop
      rw [hscript, List.append_assoc, List.cons_append]

theorem concat_map {α : Type} {f : α → Draft} {g : α → List Piece} {xs : List α}
    (hf : ∀ x ∈ xs, (f x).Follows place (g x)) :
    (Draft.concat (xs.map f)).Follows place (xs.flatMap g) := by
  induction xs with
  | nil => exact empty
  | cons x xs ih =>
      obtain ⟨hhead, htail⟩ := List.forall_mem_cons.mp hf
      exact hhead.append (ih htail)

theorem concat_texts {α : Type} (content : α → String) (xs : List α) :
    (Draft.concat (xs.map fun x => .text (content x))).Follows place
      ((xs.map content).map .fixed) := by
  have hfollows : (Draft.concat (xs.map fun x => .text (content x))).Follows place
      (xs.flatMap fun x => [.fixed (content x)]) := concat_map fun x _ => text (content x)
  rw [← List.map_eq_flatMap] at hfollows
  rwa [List.map_map]

end Draft.Follows

/-- Every text of a draft stands at some piece of its script. -/
theorem Draft.Follows.exists_piece {place : Place} {draft : Draft} {script : List Piece}
    (hfollows : draft.Follows place script) {text : String} (htext : text ∈ draft.pieces) :
    ∃ piece ∈ script, piece.text? place = some text := by
  have hsome : some text ∈ draft.pieces.map some := List.mem_map_of_mem htext
  cases hfollows with
  | complete hpieces hstop =>
      rw [← hpieces] at hsome
      exact List.mem_map.mp hsome
  | stopped hscript hpieces hmalformed hstop =>
      rw [← hpieces] at hsome
      obtain ⟨piece, hmem, hpiece⟩ := List.mem_map.mp hsome
      rw [hscript]
      exact ⟨piece, List.mem_append_left _ hmem, hpiece⟩

/-! ## The script of a unit -/

namespace EmissionUnit

/-- The script of what a routine counts as one. -/
def script : EmissionUnit → List Piece
  | single definition => [definition].map .statement
  | group block =>
      [block.scope.opening].map .fixed ++ block.members.map .statement ++
        [Fragment.scopeClosing].map .fixed

theorem follows_ofUnit (place : Place) (unit : EmissionUnit) :
    (Draft.ofUnit place unit).Follows place unit.script := by
  cases unit with
  | single definition => exact .ofDefinition definition
  | group block =>
      have hmembers : (Draft.concat (block.members.map (Draft.ofDefinition place))).Follows place
          (block.members.flatMap fun definition => [.statement definition]) :=
        .concat_map fun definition _ => .ofDefinition definition
      rw [← List.map_eq_flatMap] at hmembers
      exact ((Draft.Follows.text block.scope.opening).append hmembers).append (.text _)

theorem filterMap_script (place : Place) (unit : EmissionUnit) :
    unit.script.filterMap (Piece.text? place) = unit.texts place := by
  cases unit with
  | single definition =>
      cases hstatement : definition.statement? place <;>
        simp [script, texts, Piece.text?, hstatement]
  | group block => simp [script, texts, Piece.text?, List.filterMap_map, Function.comp_def]

theorem definitions_script (unit : EmissionUnit) :
    Piece.definitions unit.script = unit.definitions := by
  cases unit <;> simp only [script, definitions, Piece.definitions_append,
    Piece.definitions_map_fixed, Piece.definitions_map_statement, List.nil_append, List.append_nil]

end EmissionUnit

namespace Module

/-- The script of a routine, with what separates it from the text before. -/
def routineScript (module : Module) (routine : Routine EmissionUnit) : List Piece :=
  [Fragment.routineGap, module.headerText routine.index].map .fixed ++
    routine.units.flatMap EmissionUnit.script ++ [Fragment.blockClosing].map .fixed

/-- The script of a module: the texts up to the modules taken in, the module instance
and the calls, the end of the builder block, the routines, and the accessor. -/
def script (module : Module) (settings : Settings) : List Piece :=
  (module.openingTexts settings ++ module.builderTexts settings.capacity ++
      [Fragment.blockClosing]).map .fixed ++
    (module.plan settings.capacity).routines.flatMap module.routineScript ++
    [Fragment.accessor module.visibility module.path module.fieldName].map .fixed

variable {module : Module} {place : Place}

theorem follows_instanceDraft :
    module.instanceDraft.Follows place (module.instanceTexts.map .fixed) := by
  unfold instanceDraft instanceTexts
  cases module.instanceType with
  | none => exact .empty
  | some path => exact .text _

theorem follows_ofIncludes (references : List ModuleRef) :
    (Draft.ofIncludes references).Follows place
      ((if references.isEmpty then [] else [includesStatement references]).map .fixed) := by
  unfold Draft.ofIncludes
  split
  · exact .empty
  · exact .text _

theorem follows_routineDraft (routine : Routine EmissionUnit) :
    (module.routineDraft routine).Follows (.routine Fragment.instanceName)
      (module.routineScript routine) := by
  have hbody : (routineBody routine).Follows (.routine Fragment.instanceName)
      (routine.units.flatMap EmissionUnit.script) :=
    .concat_map fun unit _ => unit.follows_ofUnit _
  exact (((Draft.Follows.text _).append (.text _)).append hbody).append (.text _)

/-- The rest of the builder block and the routines of a module that has definitions. -/
theorem follows_registrationDraft (capacity : Capacity) :
    (module.registrationDraft capacity).Follows (.routine Fragment.instanceName)
      ((module.instanceTexts ++
          (List.range (module.plan capacity).callCount).map module.callText ++
          [Fragment.blockClosing]).map .fixed ++
        (module.plan capacity).routines.flatMap module.routineScript) := by
  have hcalls : (module.callsDraft (module.plan capacity)).Follows
      (.routine Fragment.instanceName)
      (((List.range (module.plan capacity).callCount).map module.callText).map .fixed) :=
    .concat_texts module.callText _
  have hinstance : (Draft.log (module.planEvent (module.plan capacity)) ++
      module.instanceDraft).Follows (.routine Fragment.instanceName)
      (module.instanceTexts.map .fixed) := (Draft.Follows.log _).append follows_instanceDraft
  have hroutines : (Draft.concat ((module.plan capacity).routines.map
      module.routineDraft)).Follows (.routine Fragment.instanceName)
      ((module.plan capacity).routines.flatMap module.routineScript) :=
    .concat_map fun routine _ => follows_routineDraft routine
  rw [List.map_append, List.map_append]
  exact ((hinstance.append hcalls).append (.text Fragment.blockClosing)).append hroutines

/-- Without definitions there is no routine. -/
theorem routines_of_definitions_eq_nil (hempty : module.definitions = []) (capacity : Capacity) :
    (module.plan capacity).routines = [] := by
  have hunits : (Grouping.ofDefinitions []).units = [] := rfl
  rw [routines_plan, hempty, hunits, cutRoutines]

/-- What is written for a module follows its script. -/
theorem follows_draft (module : Module) (settings : Settings) :
    (module.draft settings).Follows (.routine Fragment.instanceName)
      (module.script settings) := by
  have hheader : (Draft.text (Fragment.moduleHeader settings.generatedPackage)).Follows
      (.routine Fragment.instanceName) _ := .text _
  have hopening := ((hheader.append (.text (importLines module.definitions))).append
    (.text (Fragment.fieldOpening module.visibility module.fieldName))).append
    (follows_ofIncludes (module.includes.getD []))
  unfold draft script openingTexts builderTexts
  split
  next hempty =>
    rw [routines_of_definitions_eq_nil (List.isEmpty_iff.mp hempty)]
    simpa using (hopening.append (.text Fragment.blockClosing)).append
      (.text (Fragment.accessor module.visibility module.path module.fieldName))
  next hnonempty =>
    simpa using (hopening.append (follows_registrationDraft settings.capacity)).append
      (.text (Fragment.accessor module.visibility module.path module.fieldName))

/-- The texts of a script are those of a module unit, without the statements that are not
there. -/
theorem filterMap_script (module : Module) (settings : Settings) :
    (module.script settings).filterMap (Piece.text? (.routine Fragment.instanceName)) =
      module.layout settings (module.builderTexts settings.capacity)
        (module.routineBodies settings.capacity) := by
  have hfixed : ∀ contents : List String, (contents.map Piece.fixed).filterMap
      (Piece.text? (.routine Fragment.instanceName)) = contents := by
    intro contents
    rw [List.filterMap_map]
    exact List.filterMap_some
  have hroutine : ∀ routine, (module.routineScript routine).filterMap
      (Piece.text? (.routine Fragment.instanceName)) = module.routineTexts routine.index
        (routine.units.flatMap (EmissionUnit.texts (.routine Fragment.instanceName))) := by
    intro routine
    simp only [routineScript, List.filterMap_append, hfixed, List.filterMap_flatMap,
      EmissionUnit.filterMap_script]
    rfl
  simp only [script, List.filterMap_append, hfixed, List.filterMap_flatMap, hroutine]
  rw [routines_plan, flatMap_routineTexts_cutRoutines, ← routineBodies_eq]
  rfl

/-- The statements of a module stand in the order of registration. -/
theorem definitions_script (module : Module) (settings : Settings) :
    Piece.definitions (module.script settings) = registrationOrder module.definitions := by
  have hroutine : ∀ routine, Piece.definitions (module.routineScript routine) =
      routine.units.flatMap EmissionUnit.definitions := by
    intro routine
    simp only [routineScript, Piece.definitions_append, Piece.definitions_map_fixed,
      Piece.definitions_flatMap, EmissionUnit.definitions_script, List.nil_append, List.append_nil]
  simp only [script, Piece.definitions_append, Piece.definitions_map_fixed,
    Piece.definitions_flatMap, hroutine, List.nil_append, List.append_nil]
  rw [← List.flatMap_assoc, routines_plan, flatMap_units_cutRoutines,
    Grouping.flatMap_definitions_units]

end Module

/-- The script of the default unit: the texts in front of the registrations, the
registrations, and the end of the builder block. -/
def defaultScript (sources : List Module) (settings : Settings) : List Piece :=
  [Fragment.defaultHeader settings.generatedPackage, importLines (pooledDefinitions sources),
      Fragment.defaultOpening].map .fixed ++
    (Grouping.ofDefinitions (pooledDefinitions sources)).units.flatMap EmissionUnit.script ++
    [Fragment.blockClosing].map .fixed

/-- What is written for the default unit follows its script. -/
theorem follows_defaultDraft (sources : List Module) (settings : Settings) :
    (defaultDraft sources settings).Follows .defaultModule (defaultScript sources settings) := by
  have hpool : (Draft.log (poolEvent sources
      (Grouping.ofDefinitions (pooledDefinitions sources)))).Follows .defaultModule [] := .log _
  have hopening := ((hpool.append (.text (Fragment.defaultHeader settings.generatedPackage))).append
    (.text (importLines (pooledDefinitions sources)))).append (.text Fragment.defaultOpening)
  have hgrouping : ((Grouping.ofDefinitions (pooledDefinitions sources)).draft
      .defaultModule).Follows .defaultModule
      ((Grouping.ofDefinitions (pooledDefinitions sources)).units.flatMap EmissionUnit.script) :=
    .concat_map fun unit _ => unit.follows_ofUnit _
  exact (hopening.append hgrouping).append (.text _)

theorem definitions_defaultScript (sources : List Module) (settings : Settings) :
    Piece.definitions (defaultScript sources settings) =
      registrationOrder (pooledDefinitions sources) := by
  simp only [defaultScript, Piece.definitions_append, Piece.definitions_map_fixed,
    Piece.definitions_flatMap, EmissionUnit.definitions_script,
    Grouping.flatMap_definitions_units, List.nil_append, List.append_nil]

namespace Origin

/-- The script of a unit. -/
def script (settings : Settings) : Origin → List Piece
  | declared module => module.script settings
  | pooled sources => defaultScript sources settings

variable (origin : Origin) (settings : Settings)

/-- What is written for a unit follows its script. -/
theorem follows_sourceUnit :
    (origin.sourceUnit settings).draft.Follows origin.place (origin.script settings) := by
  cases origin with
  | declared module => exact module.follows_draft settings
  | pooled sources => exact follows_defaultDraft sources settings

/-- The statements of a unit stand in the order of registration. -/
theorem definitions_script :
    Piece.definitions (origin.script settings) = registrationOrder origin.definitions := by
  cases origin with
  | declared module => exact module.definitions_script settings
  | pooled sources => exact definitions_defaultScript sources settings

end Origin

end Wiring
