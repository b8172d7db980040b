import Wiring.Draft
import Wiring.Routine

/-!
# Source units

A module becomes one source unit: header and imports, the field that opens a
builder block, the modules taken in, the module instance where some definition is
called through it, one call per routine, the routines, and the accessor. The
default unit pools the definitions of all its sources in one block without
routines.
-/

namespace Wiring

/-- A named draft. -/
structure SourceUnit where
  /-- The name that failures report. -/
  name : String
  /-- What is written. -/
  draft : Draft
deriving DecidableEq, Repr, Inhabited

namespace Module

/-- The type of the module instance, if some definition is called through it. -/
def instanceType (module : Module) : Option String :=
  if module.hasMembers then some module.path else none

/-- How the units of the module are split over routines. -/
def plan (module : Module) (capacity : Capacity) : RoutinePlan EmissionUnit :=
  .ofUnits capacity (Grouping.ofDefinitions module.definitions).units

/-- The report on a plan. -/
def planEvent (module : Module) (plan : RoutinePlan EmissionUnit) : Event :=
  { level := .debug
    message := "planned module routines"
    fields := [("module", module.path), ("units", toString plan.unitCount),
      ("routines", toString plan.routines.length), ("dispatchers", toString plan.callCount)] }

/-- The construction of the module instance, if it is needed. -/
def instanceDraft (module : Module) : Draft :=
  match module.instanceType with
  | some path => .text (Fragment.instanceStatement path)
  | none => .empty

/-- The calls of the routines. -/
def callsDraft (module : Module) (plan : RoutinePlan EmissionUnit) : Draft :=
  .concat ((List.range plan.callCount).map fun index =>
    .text (Fragment.routineCall module.fieldName index module.instanceType))

/-- The statements inside a routine. -/
def routineBody (routine : Routine EmissionUnit) : Draft :=
  .concat (routine.units.map (.ofUnit (.routine Fragment.instanceName)))

/-- A routine with what separates it from the text before. -/
def routineDraft (module : Module) (routine : Routine EmissionUnit) : Draft :=
  .text Fragment.routineGap ++
    .text (Fragment.routineHeader module.visibility module.fieldName routine.index
      module.instanceType) ++
    routineBody routine ++ .text Fragment.blockClosing

/-- The rest of the builder block and the routines of a module that has
definitions. -/
def registrationDraft (module : Module) (capacity : Capacity) : Draft :=
  let plan := module.plan capacity
  .log (module.planEvent plan) ++ module.instanceDraft ++ module.callsDraft plan ++
    .text Fragment.blockClosing ++ .concat (plan.routines.map module.routineDraft)

/-- All that is written for the module. -/
def draft (module : Module) (settings : Settings) : Draft :=
  .text (Fragment.moduleHeader settings.generatedPackage) ++
    .text (importLines module.definitions) ++
    .text (Fragment.fieldOpening module.visibility module.fieldName) ++
    .ofIncludes (module.includes.getD []) ++
    (if module.definitions.isEmpty then .text Fragment.blockClosing
      else module.registrationDraft settings.capacity) ++
    .text (Fragment.accessor module.visibility module.path module.fieldName)

/-- The source unit of the module. -/
def sourceUnit (module : Module) (settings : Settings) : SourceUnit :=
  { name := module.path, draft := module.draft settings }

end Module

/-- The name of the default unit. -/
def defaultUnitName : String := "defaultModule"

/-- The definitions of all sources, in order. -/
def pooledDefinitions (sources : List Module) : List Definition :=
  sources.flatMap Module.definitions

/-- The report on pooled definitions. -/
def poolEvent (sources : List Module) (grouping : Grouping) : Event :=
  { level := .debug
    message := "pooled default module definitions"
    fields := [("sources", toString sources.length),
      ("unscoped", toString grouping.unscoped.length),
      ("scopes", toString grouping.groups.length)] }

/-- The statements of a whole grouping. -/
def Grouping.draft (place : Place) (grouping : Grouping) : Draft :=
  .concat (grouping.units.map (.ofUnit place))

/-- All that is written for the default unit. -/
def defaultDraft (sources : List Module) (settings : Settings) : Draft :=
  let definitions := pooledDefinitions sources
  let grouping := Grouping.ofDefinitions definitions
  .log (poolEvent sources grouping) ++
    .text (Fragment.defaultHeader settings.generatedPackage) ++
    .text (importLines definitions) ++ .text Fragment.defaultOpening ++
    grouping.draft .defaultModule ++ .text Fragment.blockClosing

/-- The source unit of the default module. -/
def defaultUnit (sources : List Module) (settings : Settings) : SourceUnit :=
  { name := defaultUnitName, draft := defaultDraft sources settings }

end Wiring
