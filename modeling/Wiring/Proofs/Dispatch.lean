import Mathlib.Data.List.Count
import Wiring.Proofs.Affix
import Wiring.Proofs.Registration

/-!
# Calls and the routines they reach

The calls stand in the builder block, in front of all routines, and are numbered like
them. Their number comes from the number of units alone, so a call may name no routine:
that is the last one, and only where the capacity divides the number of units.
-/

namespace Wiring

namespace Module

variable {module : Module} {index : Nat} {text : String}

/-! ## Calls apart from other texts -/

theorem startsIn_callText (module : Module) (index : Nat) :
    StartsIn ["\n\t"] (module.callText index) := by
  iterate 4 refine StartsIn.append ?_ _
  exact ⟨"\n\t", by decide, by decide⟩

/-- A call that hands the instance over ends behind its name. -/
theorem endsIn_callText_of_instanceType_eq_some {path : String}
    (hinstance : module.instanceType = some path) (index : Nat) :
    EndsIn ["ce)"] (module.callText index) := by
  unfold callText Fragment.routineCall
  rw [String.append_assoc, String.append_assoc, hinstance, Option.isSome_some, if_pos rfl]
  exact EndsIn.append ⟨"ce)", by decide, by decide⟩ _

theorem endsIn_callText (module : Module) (index : Nat) :
    EndsIn ["()", "ce)"] (module.callText index) := by
  cases hinstance : module.instanceType with
  | none =>
      unfold callText Fragment.routineCall
      rw [String.append_assoc, String.append_assoc, hinstance]
      exact EndsIn.append ⟨"()", by decide, by decide⟩ _
  | some path => exact (endsIn_callText_of_instanceType_eq_some hinstance index).mono (by decide)

/-- The texts up to the modules taken in end as no statement and no call does. -/
theorem endsIn_openingTexts (settings : Settings) :
    ∀ text ∈ module.openingTexts settings, EndsIn ["\n", "\x7b", "le)"] text := by
  unfold openingTexts
  simp only [List.forall_mem_append, List.forall_mem_cons]
  refine ⟨⟨(endsIn_moduleHeader _).mono (by decide), (endsIn_importLines _).mono (by decide),
    (endsIn_fieldOpening _ _).mono (by decide), List.forall_mem_nil _⟩, ?_⟩
  split
  next hempty => exact List.forall_mem_nil _
  next hincludes =>
    rw [List.forall_mem_singleton]
    have hending := endsIn_includesStatement fun hnil => hincludes (List.isEmpty_iff.mpr hnil)
    exact hending.mono (by decide)

theorem callText_not_mem_instanceTexts : module.callText index ∉ module.instanceTexts := by
  unfold instanceTexts
  cases hinstance : module.instanceType with
  | none => simp
  | some path =>
      -- both end in a parenthesis, but this call hands the instance over
      have hcall := endsIn_callText_of_instanceType_eq_some hinstance index
      have hstatement : EndsIn ["()"] (Fragment.instanceStatement path) :=
        EndsIn.append ⟨"()", by decide, by decide⟩ _
      simpa using hcall.ne hstatement (by decide)

theorem callText_injective (module : Module) : Function.Injective module.callText := by
  intro first second heq
  unfold callText Fragment.routineCall Fragment.routineName at heq
  simp only [String.append_left_inj, String.append_right_inj] at heq
  exact eq_of_toString_eq heq

/-! ## Signatures apart from other texts -/

theorem startsIn_headerText (module : Module) (index : Nat) :
    StartsIn ["p", "i"] (module.headerText index) := by
  iterate 5 refine StartsIn.append ?_ _
  cases module.visibility with
  | exported => exact ⟨"p", by decide, by decide⟩
  | internal => exact ⟨"i", by decide, by decide⟩
  | fileLocal => exact ⟨"p", by decide, by decide⟩

theorem endsIn_headerText (module : Module) (index : Nat) :
    EndsIn ["\x7b"] (module.headerText index) :=
  EndsIn.append ⟨"\x7b", by decide, by decide⟩ _

theorem ne_headerText (module : Module) (index : Nat) (htext : OnNewLine text) :
    text ≠ module.headerText index :=
  htext.ne (module.startsIn_headerText index) (by decide)

theorem headerText_not_mem_openingTexts (settings : Settings) :
    module.headerText index ∉ module.openingTexts settings := by
  have hother : ∀ text ∈ module.openingTexts settings, text ≠ module.headerText index := by
    have hending := module.endsIn_headerText index
    unfold openingTexts
    simp only [List.forall_mem_append, List.forall_mem_cons]
    refine ⟨⟨(endsIn_moduleHeader _).ne hending (by decide),
      (endsIn_importLines _).ne hending (by decide),
      module.ne_headerText index (onNewLine_fieldOpening _ _), List.forall_mem_nil _⟩, ?_⟩
    split
    next hempty => exact List.forall_mem_nil _
    next hincludes =>
      rw [List.forall_mem_singleton]
      exact module.ne_headerText index (onNewLine_includesStatement _)
  intro hmem
  exact hother _ hmem rfl

theorem headerText_injective (module : Module) : Function.Injective module.headerText := by
  intro first second heq
  unfold headerText Fragment.routineHeader Fragment.routineName at heq
  simp only [String.append_left_inj, String.append_right_inj] at heq
  exact eq_of_toString_eq heq

theorem headerText_not_mem_builderTexts (module : Module) (index : Nat) (capacity : Capacity) :
    module.headerText index ∉ module.builderTexts capacity := by
  unfold builderTexts
  split
  next hempty => exact List.not_mem_nil
  next hnonempty =>
    intro hmem
    rcases List.mem_append.mp hmem with hinstance | hcall
    · rw [instanceTexts, Option.mem_toList, Option.map_eq_some_iff] at hinstance
      obtain ⟨path, _, heq⟩ := hinstance
      exact module.ne_headerText index (onNewLine_instanceStatement path) heq
    · obtain ⟨number, _, heq⟩ := List.mem_map.mp hcall
      exact (module.startsIn_callText number).ne (module.startsIn_headerText index)
        (by decide) heq

/-! ## Counting calls and signatures -/

variable {settings : Settings} {builder : List String} {bodies : List (List String)}

theorem endsForeign_routinesTexts
    (hbodies : ∀ body ∈ bodies, ∀ text ∈ body, EndsForeign text) (start : Nat) :
    ∀ text ∈ module.routinesTexts start bodies, EndsForeign text := by
  induction bodies generalizing start with
  | nil => exact List.forall_mem_nil _
  | cons body bodies ih =>
      obtain ⟨hbody, hrest⟩ := List.forall_mem_cons.mp hbodies
      have hheader : EndsForeign (module.headerText start) :=
        (module.endsIn_headerText start).mono (by decide)
      simp only [routinesTexts, routineTexts, List.forall_mem_append, List.forall_mem_cons]
      exact ⟨⟨⟨⟨endsForeign_routineGap, hheader, List.forall_mem_nil _⟩, hbody⟩,
        endsForeign_blockClosing, List.forall_mem_nil _⟩, ih hrest (start + 1)⟩

/-- What looks like a call stands in the builder block only, where the bodies hold
nothing that ends so. -/
theorem count_layout_eq_count_builder (hstart : StartsIn ["\n\t"] text)
    (hend : EndsIn ["()", "ce)"] text)
    (hbodies : ∀ body ∈ bodies, ∀ text ∈ body, EndsForeign text) :
    (module.layout settings builder bodies).count text = builder.count text := by
  have hopening : text ∉ module.openingTexts settings := by
    intro hmem
    exact hend.ne (endsIn_openingTexts settings text hmem) (by decide) rfl
  have hroutines : text ∉ module.routinesTexts 0 bodies := by
    intro hmem
    exact hend.ne (endsForeign_routinesTexts hbodies 0 text hmem) (by decide) rfl
  have hclosing : Fragment.blockClosing ≠ text := endsForeign_blockClosing.ne hend (by decide)
  have haccessor := (startsIn_accessor module.visibility module.path module.fieldName).ne hstart
    (by decide)
  unfold layout
  simp [List.count_append, List.count_eq_zero_of_not_mem hopening,
    List.count_eq_zero_of_not_mem hroutines, hclosing, haccessor]

/-- Where the bodies hold no calls, all calls stand in the builder block. -/
theorem count_callText_layout (hbodies : ∀ body ∈ bodies, ∀ text ∈ body, EndsForeign text) :
    (module.layout settings builder bodies).count (module.callText index) =
      builder.count (module.callText index) :=
  count_layout_eq_count_builder (module.startsIn_callText index) (module.endsIn_callText index)
    hbodies

theorem count_headerText_routinesTexts
    (hbodies : ∀ body ∈ bodies, ∀ text ∈ body, OnNewLine text) (start : Nat) :
    (module.routinesTexts start bodies).count (module.headerText index) =
      (List.range' start bodies.length).count index := by
  induction bodies generalizing start with
  | nil => rfl
  | cons body bodies ih =>
      obtain ⟨hbody, hrest⟩ := List.forall_mem_cons.mp hbodies
      have hgap := module.ne_headerText index onNewLine_routineGap
      have hclosing := module.ne_headerText index onNewLine_blockClosing
      have hinside : body.count (module.headerText index) = 0 := by
        apply List.count_eq_zero_of_not_mem
        intro htext
        exact module.ne_headerText index (hbody _ htext) rfl
      -- the signature of this routine is the only one it holds
      rw [routinesTexts, List.count_append, ih hrest, List.length_cons, List.range'_succ]
      simp [routineTexts, List.count_cons, hinside, hgap, hclosing,
        module.headerText_injective.eq_iff, Nat.add_comm]

/-- Where neither the builder block nor the bodies hold signatures, there is one for
every body. -/
theorem count_headerText_layout (hbuilder : module.headerText index ∉ builder)
    (hbodies : ∀ body ∈ bodies, ∀ text ∈ body, OnNewLine text) :
    (module.layout settings builder bodies).count (module.headerText index) =
      if index < bodies.length then 1 else 0 := by
  have hclosing := module.ne_headerText index onNewLine_blockClosing
  have haccessor := (startsIn_accessor module.visibility module.path module.fieldName).ne
    (module.startsIn_headerText index) (by decide)
  unfold layout
  simp only [List.count_append, List.count_eq_zero_of_not_mem hbuilder,
    List.count_eq_zero_of_not_mem (headerText_not_mem_openingTexts settings),
    count_headerText_routinesTexts hbodies]
  simp [hclosing, haccessor]

/-! ## Calls and routines of a module -/

theorem length_routineBodies (module : Module) (capacity : Capacity) :
    (module.routineBodies capacity).length =
      routineCount capacity (Grouping.ofDefinitions module.definitions).unitCount := by
  unfold routineBodies
  rw [List.length_map, routines_plan, length_cutRoutines, Grouping.length_units]

theorem callCount_plan (module : Module) (capacity : Capacity) :
    (module.plan capacity).callCount =
      (Grouping.ofDefinitions module.definitions).unitCount / capacity.rows + 1 := by
  rw [plan, RoutinePlan.callCount_ofUnits, Grouping.length_units]

theorem exists_unit_of_mem_routineBodies {module : Module} {capacity : Capacity}
    {body : List String} (hbody : body ∈ module.routineBodies capacity) {text : String}
    (htext : text ∈ body) :
    ∃ unit : EmissionUnit, text ∈ unit.texts (.routine Fragment.instanceName) := by
  obtain ⟨routine, _, rfl⟩ := List.mem_map.mp hbody
  obtain ⟨unit, _, htext⟩ := List.mem_flatMap.mp htext
  exact ⟨unit, htext⟩

theorem startsIn_routineBodies (module : Module) (capacity : Capacity) :
    ∀ body ∈ module.routineBodies capacity, ∀ text ∈ body, StartsIn ["\n\t"] text := by
  intro body hbody text htext
  obtain ⟨unit, hunit⟩ := exists_unit_of_mem_routineBodies hbody htext
  exact (EmissionUnit.texts_affixes hunit).1

theorem onNewLine_routineBodies (module : Module) (capacity : Capacity) :
    ∀ body ∈ module.routineBodies capacity, ∀ text ∈ body, OnNewLine text := by
  intro body hbody text htext
  apply (module.startsIn_routineBodies capacity body hbody text htext).shorten
  exact List.forall_mem_singleton.mpr ⟨"\n", by decide, by decide⟩

theorem endsForeign_routineBodies (module : Module) (capacity : Capacity) :
    ∀ body ∈ module.routineBodies capacity, ∀ text ∈ body, EndsForeign text := by
  intro body hbody text htext
  obtain ⟨unit, hunit⟩ := exists_unit_of_mem_routineBodies hbody htext
  exact (EmissionUnit.texts_affixes hunit).2

end Module

theorem mem_iff_of_count_eq {texts : List String} {text : String} {p : Prop} [Decidable p]
    (hcount : texts.count text = if p then 1 else 0) : text ∈ texts ↔ p := by
  rw [← List.count_pos_iff, hcount]
  split <;> simp_all

section Delivery

variable {σ : Type} {module : Module} {settings : Settings} {sink : Sink σ} {state : σ}

/-- In a completed unit there is one call and no more for every number up to the
quotient of the units by the capacity. -/
theorem count_callText_received
    (hok : (sink.deliver (module.sourceUnit settings) state).1 = .ok ())
    (hdefinitions : module.definitions ≠ []) (index : Nat) :
    (sink.received (module.sourceUnit settings) state).count (module.callText index) =
      if index ≤ (Grouping.ofDefinitions module.definitions).unitCount / settings.capacity.rows
        then 1 else 0 := by
  have hbodies := module.endsForeign_routineBodies settings.capacity
  have hnonempty : ¬module.definitions.isEmpty := by simpa using hdefinitions
  rw [(Module.received_eq hok).2, Module.count_callText_layout hbodies, Module.builderTexts,
    if_neg hnonempty, List.count_append,
    List.count_eq_zero_of_not_mem Module.callText_not_mem_instanceTexts, Nat.zero_add,
    List.count_map_of_injective _ _ module.callText_injective, List.count_range,
    Module.callCount_plan]
  simp only [Nat.lt_succ_iff]

/-- In a completed unit there is one signature and no more for every routine. -/
theorem count_headerText_received
    (hok : (sink.deliver (module.sourceUnit settings) state).1 = .ok ()) (index : Nat) :
    (sink.received (module.sourceUnit settings) state).count (module.headerText index) =
      if index < routineCount settings.capacity
          (Grouping.ofDefinitions module.definitions).unitCount
        then 1 else 0 := by
  have hbodies := module.onNewLine_routineBodies settings.capacity
  have hbuilder := module.headerText_not_mem_builderTexts index settings.capacity
  rw [(Module.received_eq hok).2, Module.count_headerText_layout hbuilder hbodies,
    Module.length_routineBodies]

/-- A module without definitions has neither calls nor routines. -/
theorem not_mem_received_of_definitions_eq_nil
    (hok : (sink.deliver (module.sourceUnit settings) state).1 = .ok ())
    (hempty : module.definitions = []) (index : Nat) :
    module.callText index ∉ sink.received (module.sourceUnit settings) state ∧
      module.headerText index ∉ sink.received (module.sourceUnit settings) state := by
  have hbuilder : module.builderTexts settings.capacity = [] := by
    rw [Module.builderTexts, if_pos (List.isEmpty_iff.mpr hempty)]
  rw [(Module.received_eq hok).2, hbuilder, Module.routineBodies_of_definitions_eq_nil hempty]
  constructor
  · rw [← List.count_eq_zero, Module.count_callText_layout (by simp)]
    rfl
  · rw [← List.count_eq_zero, Module.count_headerText_layout (by simp) (by simp)]
    rfl

/-- The calls reach the routines. In a completed unit of a module that has definitions,
the builder block makes one call for every number up to the quotient of the units by
the capacity, in ascending order; behind it the routines stand in ascending order, one
for every number below that quotient rounded up. So every routine is called once, and a
call that names no routine is the last one, made where the capacity divides the number
of units. -/
theorem calls_reach_routines
    (hok : (sink.deliver (module.sourceUnit settings) state).1 = .ok ()) :
    let received := sink.received (module.sourceUnit settings) state
    let unitCount := (Grouping.ofDefinitions module.definitions).unitCount
    let rows := settings.capacity.rows
    (module.definitions = [] →
      ∀ index, module.callText index ∉ received ∧ module.headerText index ∉ received) ∧
    (module.definitions ≠ [] →
      (∃ bodies : List (List String), bodies.length = (unitCount + rows - 1) / rows ∧
        received = module.layout settings
          (module.instanceTexts ++ (List.range (unitCount / rows + 1)).map module.callText)
          bodies) ∧
      (∀ index, received.count (module.callText index) =
        if index ≤ unitCount / rows then 1 else 0) ∧
      (∀ index, received.count (module.headerText index) =
        if index < (unitCount + rows - 1) / rows then 1 else 0) ∧
      (∀ index, module.headerText index ∈ received → module.callText index ∈ received) ∧
      ∀ index, (module.callText index ∈ received ∧ module.headerText index ∉ received) ↔
        rows ∣ unitCount ∧ index = unitCount / rows) := by
  intro received unitCount rows
  refine ⟨not_mem_received_of_definitions_eq_nil hok, ?_⟩
  intro hdefinitions
  have hcalls := count_callText_received hok hdefinitions
  have hheaders := count_headerText_received hok
  have hcalled := fun index => mem_iff_of_count_eq (hcalls index)
  have hopened := fun index => mem_iff_of_count_eq (hheaders index)
  refine ⟨⟨module.routineBodies settings.capacity, module.length_routineBodies _, ?_⟩,
    hcalls, hheaders, ?_, ?_⟩
  · have hnonempty : ¬module.definitions.isEmpty := by simpa using hdefinitions
    have hreceived := (Module.received_eq hok).2
    rw [Module.builderTexts, if_neg hnonempty, Module.callCount_plan] at hreceived
    exact hreceived
  · intro index hmem
    exact (hcalled index).mpr (le_div_of_lt_routineCount ((hopened index).mp hmem))
  · intro index
    rw [hcalled, hopened, Nat.not_lt]
    exact le_div_and_routineCount_le_iff

/-- Two units fill a routine of two; the second call names no routine. -/
theorem calls_reach_routines_of_full_routine :
    let module := { Module.named "app" "Main" with
      definitions := [(Definition.ofFunction "app" "clock" { name := "single" }).memberOfModule,
        (Definition.ofType "app" "Item" { name := "scoped" }).inScope (.named "menu")] }
    let settings : Settings := { capacity := ⟨2, by decide, by decide⟩ }
    let received := TextBuffer.sink.received (module.sourceUnit settings) {}
    (TextBuffer.sink.deliver (module.sourceUnit settings) {}).1 = .ok () ∧
    module.definitions ≠ [] ∧
    module.callText 0 ∈ received ∧
    module.callText 1 ∈ received ∧ module.headerText 1 ∉ received := by
  intro module settings received
  have hstatements : AllStated (.routine Fragment.instanceName) module.definitions := by decide
  have hok : (TextBuffer.sink.deliver (module.sourceUnit settings) {}).1 = .ok () :=
    Origin.deliver_eq_ok (.declared module) Sink.isFaultFree_textBuffer hstatements _
  have hdefinitions : module.definitions ≠ [] := by decide
  have hcount : (Grouping.ofDefinitions module.definitions).unitCount = 2 := by decide
  obtain ⟨_, hcalls, _, _, hlast⟩ := (calls_reach_routines hok).2 hdefinitions
  rw [hcount] at hcalls hlast
  refine ⟨hok, hdefinitions, ?_, (hlast 1).mpr ⟨by decide, by decide⟩⟩
  exact (mem_iff_of_count_eq (hcalls 0)).mpr (by decide)

end Delivery

end Wiring
