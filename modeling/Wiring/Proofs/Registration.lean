import Wiring.Proofs.Layout
import Wiring.Proofs.Sink.Release

/-!
# What a unit registers

The registrations of a unit are fixed by its definitions alone: a statement for every
distinct definition without a scope, then a block for every distinct scope. Routines
only cut this sequence between blocks, so their capacity decides where it is cut and
never what is registered.
-/

namespace Wiring

/-! ## Registrations as blocks -/

/-- The texts of the registrations, block by block: the statement of each distinct
definition without a scope is a block of its own, and the definitions of a scope
stand in one block between its opening and the closing. -/
def registrationBlocks (place : Place) (definitions : List Definition) : List (List String) :=
  (definitionsIn none definitions).map (fun definition =>
    (definition.statement? place).toList) ++
  (distinctScopes definitions).map fun scope =>
    scope.opening ::
      (definitionsIn (some scope) definitions).filterMap (Definition.statement? place) ++
      [Fragment.scopeClosing]

theorem map_texts_units (place : Place) (definitions : List Definition) :
    (Grouping.ofDefinitions definitions).units.map (EmissionUnit.texts place) =
      registrationBlocks place definitions := by
  rw [Grouping.units_ofDefinitions, List.map_append, List.map_map, List.map_map]
  rfl

theorem flatMap_texts_units (place : Place) (definitions : List Definition) :
    (Grouping.ofDefinitions definitions).units.flatMap (EmissionUnit.texts place) =
      (registrationBlocks place definitions).flatten := by
  rw [← map_texts_units, List.flatMap_def]

/-- Only members of a module are called differently where they stand. -/
theorem Definition.statement?_eq_of_isMember_eq_false {definition : Definition}
    (hmember : definition.isMember = false) (place other : Place) :
    definition.statement? place = definition.statement? other := by
  have htarget : definition.provider.target definition.package place =
      definition.provider.target definition.package other := by
    unfold Definition.isMember at hmember
    cases hprovider : definition.provider with
    | type name => rfl
    | function name isMember =>
        rw [hprovider] at hmember
        obtain rfl : isMember = false := hmember
        rfl
  unfold Definition.statement? Definition.statement
  rw [htarget]

/-- Without members it makes no difference where the registrations stand. -/
theorem registrationBlocks_congr {definitions : List Definition}
    (hmembers : ∀ definition ∈ definitions, definition.isMember = false) (place other : Place) :
    registrationBlocks place definitions = registrationBlocks other definitions := by
  have hstatement : ∀ scope, ∀ definition ∈ definitionsIn scope definitions,
      definition.statement? place = definition.statement? other := by
    intro scope definition hmem
    have hmember := hmembers definition (mem_definitionsIn.mp hmem).1
    exact Definition.statement?_eq_of_isMember_eq_false hmember place other
  unfold registrationBlocks
  congr 1
  · apply List.map_congr_left
    intro definition hmem
    rw [hstatement none definition hmem]
  · apply List.map_congr_left
    intro scope _
    rw [List.filterMap_congr (hstatement (some scope))]

namespace Module

/-- However they are cut, the bodies of the routines are the registrations. -/
theorem flatten_routineBodies (module : Module) (capacity : Capacity) :
    (module.routineBodies capacity).flatten =
      (registrationBlocks (.routine Fragment.instanceName) module.definitions).flatten := by
  unfold routineBodies
  -- the routines hold the units in order, so the cuts vanish with the routines
  rw [routines_plan, ← List.flatMap_def, ← List.flatMap_assoc, flatMap_units_cutRoutines,
    flatMap_texts_units]

/-- Routines hold whole blocks, at least one of them and no more than their capacity. -/
theorem exists_chunks (module : Module) (capacity : Capacity) :
    ∃ chunks : List (List (List String)),
      chunks.flatten =
        registrationBlocks (.routine Fragment.instanceName) module.definitions ∧
      (∀ chunk ∈ chunks, 0 < chunk.length ∧ chunk.length ≤ capacity.rows) ∧
      module.routineBodies capacity = chunks.map List.flatten := by
  refine ⟨(module.plan capacity).routines.map fun routine =>
    routine.units.map (EmissionUnit.texts (.routine Fragment.instanceName)), ?_, ?_, ?_⟩
  · rw [← List.flatMap_def, ← List.map_flatMap, routines_plan, flatMap_units_cutRoutines,
      map_texts_units]
  · intro chunk hchunk
    obtain ⟨routine, hroutine, rfl⟩ := List.mem_map.mp hchunk
    rw [List.length_map]
    rw [routines_plan] at hroutine
    exact length_units_of_mem_cutRoutines hroutine
  · rw [List.map_map]
    rfl

end Module

/-! ## What a sink receives -/

section Delivery

variable {σ : Type} {settings : Settings}

/-- What a sink has received once the unit of a module is completed. -/
theorem Module.received_eq {module : Module} {sink : Sink σ} {state : σ}
    (hok : (sink.deliver (module.sourceUnit settings) state).1 = .ok ()) :
    AllStated (.routine Fragment.instanceName) module.definitions ∧
    sink.received (module.sourceUnit settings) state =
      module.layout settings (module.builderTexts settings.capacity)
        (module.routineBodies settings.capacity) := by
  obtain ⟨hstop, hreceived⟩ := Sink.received_of_deliver_eq_ok hok
  have hdefinitions := Module.stop_draft_eq_none.mp hstop
  exact ⟨hdefinitions, hreceived.trans (Module.pieces_draft hdefinitions)⟩

/-- What a sink has received once the default unit is completed. -/
theorem received_defaultUnit_eq {sources : List Module} {sink : Sink σ} {state : σ}
    (hok : (sink.deliver (defaultUnit sources settings) state).1 = .ok ()) :
    AllStated .defaultModule (pooledDefinitions sources) ∧
    sink.received (defaultUnit sources settings) state =
      defaultLayout settings sources
        (registrationBlocks .defaultModule (pooledDefinitions sources)).flatten := by
  obtain ⟨hstop, hreceived⟩ := Sink.received_of_deliver_eq_ok hok
  have hdefinitions := stop_defaultDraft_eq_none.mp hstop
  rw [← flatMap_texts_units]
  exact ⟨hdefinitions, hreceived.trans (pieces_defaultDraft hdefinitions)⟩

/-- At a sink without faults a unit is completed as soon as all its definitions have
statements. -/
theorem Origin.deliver_eq_ok (origin : Origin) {calm : Sink σ} {state : σ}
    (hcalm : calm.IsFaultFree state)
    (hdefinitions : AllStated origin.place origin.definitions) (settings : Settings) :
    (calm.deliver (origin.sourceUnit settings) state).1 = .ok () := by
  have hstop : (origin.sourceUnit settings).draft.stop = none :=
    Origin.stop_sourceUnit_eq_none.mpr hdefinitions
  rw [hcalm.deliver_eq, SourceUnit.rendered, hstop]

/-- A completed unit registers every definition once, and nothing else. The blocks
follow each other in the order of first occurrence. A module holds them in routines,
each of which has some whole blocks but no more than the capacity allows; the default
module holds them all in its builder block. -/
theorem deliver_registers_each_once {origin : Origin} {sink : Sink σ} {state : σ}
    (hok : (sink.deliver (origin.sourceUnit settings) state).1 = .ok ()) :
    AllStated origin.place origin.definitions ∧
    (registrationOrder origin.definitions).Nodup ∧
    (∀ definition, definition ∈ registrationOrder origin.definitions ↔
      definition ∈ origin.definitions) ∧
    match origin with
    | .declared module =>
        ∃ chunks : List (List (List String)),
          chunks.flatten = registrationBlocks origin.place origin.definitions ∧
          (∀ chunk ∈ chunks, 0 < chunk.length ∧ chunk.length ≤ settings.capacity.rows) ∧
          sink.received (origin.sourceUnit settings) state =
            module.layout settings (module.builderTexts settings.capacity)
              (chunks.map List.flatten)
    | .pooled sources =>
        sink.received (origin.sourceUnit settings) state =
          defaultLayout settings sources
            (registrationBlocks origin.place origin.definitions).flatten := by
  cases origin with
  | declared module =>
      obtain ⟨hdefinitions, hreceived⟩ := Module.received_eq hok
      obtain ⟨chunks, hblocks, hlengths, hbodies⟩ := module.exists_chunks settings.capacity
      rw [hbodies] at hreceived
      exact ⟨hdefinitions, nodup_registrationOrder _, fun _ => mem_registrationOrder,
        chunks, hblocks, hlengths, hreceived⟩
  | pooled sources =>
      obtain ⟨hdefinitions, hreceived⟩ := received_defaultUnit_eq hok
      exact ⟨hdefinitions, nodup_registrationOrder _, fun _ => mem_registrationOrder, hreceived⟩

/-- Six definitions, one of them a repetition and two of them in a scope, make four
blocks for two routines. -/
theorem deliver_registers_each_once_of_repetition :
    let single := Definition.ofType "app" "Store" { name := "single" }
    let inMenu := (Definition.ofType "app" "Item" { name := "scoped" }).inScope (.named "menu")
    let origin := Origin.declared { Module.named "app" "Main" with
      definitions := [single, inMenu, single,
        Definition.ofFunction "app" "clock" { name := "single" }, inMenu.qualified "main",
        single.eager] }
    let settings : Settings := { capacity := ⟨2, by decide, by decide⟩ }
    (TextBuffer.sink.deliver (origin.sourceUnit settings) {}).1 = .ok () ∧
    (registrationOrder origin.definitions).Nodup ∧
    ∃ chunks : List (List (List String)),
      chunks.flatten = registrationBlocks origin.place origin.definitions ∧
      ∀ chunk ∈ chunks, 0 < chunk.length ∧ chunk.length ≤ 2 := by
  intro single inMenu origin settings
  have hdefinitions : AllStated origin.place origin.definitions := by decide
  have hok := origin.deliver_eq_ok Sink.isFaultFree_textBuffer hdefinitions settings
  obtain ⟨_, hnodup, _, chunks, hblocks, hlengths, _⟩ := deliver_registers_each_once hok
  exact ⟨hok, hnodup, chunks, hblocks, hlengths⟩

/-- The capacity decides where registrations are cut and nothing else: a module that
can be written with one capacity can be written with every other, and the bodies of
its routines put together are always the same. Where no definition is called through
the module instance, the default module registers just that. -/
theorem routines_register_same_texts {module : Module} {calm : Sink σ} {state : σ}
    (hcalm : calm.IsFaultFree state)
    (hok : (calm.deliver (module.sourceUnit settings) state).1 = .ok ())
    (first second : Capacity) (others : Settings) :
    (∀ capacity : Capacity,
      (calm.deliver (module.sourceUnit { settings with capacity }) state).1 = .ok () ∧
      calm.received (module.sourceUnit { settings with capacity }) state =
        module.layout settings (module.builderTexts capacity) (module.routineBodies capacity)) ∧
    (module.routineBodies first).flatten = (module.routineBodies second).flatten ∧
    (module.hasMembers = false →
      (calm.deliver (defaultUnit [module] others) state).1 = .ok () ∧
      calm.received (defaultUnit [module] others) state =
        defaultLayout others [module] (module.routineBodies first).flatten) := by
  obtain ⟨hdefinitions, _⟩ := Module.received_eq hok
  refine ⟨?_, ?_, ?_⟩
  · intro capacity
    have hcut : (calm.deliver (module.sourceUnit { settings with capacity }) state).1 = .ok () :=
      Origin.deliver_eq_ok (.declared module) hcalm hdefinitions _
    exact ⟨hcut, (Module.received_eq hcut).2⟩
  · rw [Module.flatten_routineBodies, Module.flatten_routineBodies]
  · intro hmembers
    have hplain : ∀ definition ∈ module.definitions, definition.isMember = false := by
      simpa [Module.hasMembers] using hmembers
    have hpooled : pooledDefinitions [module] = module.definitions := List.flatMap_singleton _ _
    have hstatements : AllStated .defaultModule (pooledDefinitions [module]) := by
      intro definition hmem
      rw [hpooled] at hmem
      rw [Definition.statement?_eq_of_isMember_eq_false (hplain definition hmem) _
        (.routine Fragment.instanceName)]
      exact hdefinitions definition hmem
    have hdefault : (calm.deliver (defaultUnit [module] others) state).1 = .ok () :=
      Origin.deliver_eq_ok (.pooled [module]) hcalm hstatements _
    refine ⟨hdefault, ?_⟩
    rw [(received_defaultUnit_eq hdefault).2, hpooled, Module.flatten_routineBodies,
      registrationBlocks_congr hplain]

/-- Three definitions without members, in routines of one unit and of two. -/
theorem routines_register_same_texts_of_functions :
    let module := { Module.named "app" "Main" with
      definitions := [Definition.ofFunction "app" "clock" { name := "single" },
        (Definition.ofType "app" "Item" { name := "scoped" }).inScope (.type "app.Menu"),
        Definition.ofType "app" "Store" { name := "factory" }] }
    let one : Capacity := ⟨1, by decide, by decide⟩
    let two : Capacity := ⟨2, by decide, by decide⟩
    (TextBuffer.sink.deliver (module.sourceUnit {}) {}).1 = .ok () ∧
    (module.routineBodies one).flatten = (module.routineBodies two).flatten ∧
    TextBuffer.sink.received (defaultUnit [module] {}) {} =
      defaultLayout {} [module] (module.routineBodies one).flatten := by
  intro module one two
  have hdefinitions : AllStated (.routine Fragment.instanceName) module.definitions := by decide
  have hok : (TextBuffer.sink.deliver (module.sourceUnit {}) {}).1 = .ok () :=
    Origin.deliver_eq_ok (.declared module) Sink.isFaultFree_textBuffer hdefinitions _
  obtain ⟨_, hsame, hdefault⟩ :=
    routines_register_same_texts Sink.isFaultFree_textBuffer hok one two {}
  exact ⟨hok, hsame, (hdefault (by decide)).2⟩

end Delivery

end Wiring
