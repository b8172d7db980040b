import Mathlib.Data.List.Pairwise
import Wiring.Proofs.Dispatch
import Wiring.Proofs.Naming.Field
import Wiring.Proofs.Script

/-!
# Names of routines

All routines of a run are functions of one package, and the name of a routine is the
field of its module with the number of the routine directly behind it. So the numbering
of one module runs into that of another where the field of the other is the field of the
one with a number behind it: the tenfold of that number is reached by the one where the
other begins. There, and nowhere else, names are shared.
-/

namespace Wiring

/-! ## Decimal numerals -/

/-- A numeral that ends in another numeral has a numeral in front of it, unless both are
the same. -/
theorem exists_toDigits_eq_of_append {front : List Char} (hfront : front ≠ []) {number rest : Nat}
    (h : Nat.toDigits 10 number = front ++ Nat.toDigits 10 rest) :
    ∃ leading > 0, front = Nat.toDigits 10 leading ∧ 10 * leading ≤ number := by
  -- the last digits of both numerals are taken off together
  induction rest using Nat.strongRecOn generalizing number with
  | ind rest ih =>
      have hten : 10 ≤ number := by
        by_contra hsmall
        rw [Nat.toDigits_of_lt_base (Nat.not_le.mp hsmall)] at h
        have hlength := congrArg List.length h
        have hfrontLength := List.length_pos_iff.mpr hfront
        have hrest := Nat.length_toDigits_pos (b := 10) (n := rest)
        rw [List.length_append, List.length_singleton] at hlength
        omega
      rw [Nat.toDigits_of_base_le (by decide) hten] at h
      by_cases hdigit : rest < 10
      · rw [Nat.toDigits_of_lt_base hdigit] at h
        obtain ⟨hleading, _⟩ := List.append_inj' h rfl
        exact ⟨number / 10, by omega, hleading.symm, Nat.mul_div_le number 10⟩
      · rw [Nat.toDigits_of_base_le (by decide) (Nat.not_lt.mp hdigit), ← List.append_assoc] at h
        obtain ⟨hshorter, _⟩ := List.append_inj' h rfl
        obtain ⟨leading, hpositive, hleading, hle⟩ := ih (rest / 10) (by omega) hshorter
        exact ⟨leading, hpositive, hleading, by omega⟩

theorem exists_toString_eq_of_append {front : String} (hfront : front ≠ "") {number rest : Nat}
    (h : toString number = front ++ toString rest) :
    ∃ leading > 0, front = toString leading ∧ 10 * leading ≤ number := by
  have hdigits := congrArg String.toList h
  simp only [String.toList_append, Nat.toString_eq_repr, Nat.toList_repr] at hdigits
  have hchars : front.toList ≠ [] := by simpa using hfront
  obtain ⟨leading, hpositive, hleading, hle⟩ := exists_toDigits_eq_of_append hchars hdigits
  refine ⟨leading, hpositive, ?_, hle⟩
  rw [← String.toList_inj, hleading, Nat.toString_eq_repr, Nat.toList_repr]

theorem toString_tenfold {number : Nat} (hpositive : 0 < number) :
    toString (10 * number) = toString number ++ toString 0 := by
  simp only [← String.toList_inj, String.toList_append, Nat.toString_eq_repr, Nat.toList_repr]
  exact (Nat.toDigits_append_toDigits (b := 10) (d := 0) (by decide) hpositive (by decide)).symm

/-! ## Numbered names -/

namespace Fragment

/-- The names of the first routines of a field. -/
def routineNames (field : String) (count : Nat) : List String :=
  (List.range count).map (routineName field)

/-- The other field is the field with a number behind it, and the names of the field go on
to the tenfold of that number, which is where the names of the other one begin. -/
def RunsInto (field : String) (count : Nat) (other : String) (otherCount : Nat) : Prop :=
  ∃ number > 0, other = field ++ toString number ∧ 10 * number < count ∧ 0 < otherCount

variable {field other name : String} {count otherCount : Nat}

theorem mem_routineNames : name ∈ routineNames field count ↔
    ∃ index < count, routineName field index = name := by
  simp [routineNames]

theorem routineName_injective (field : String) : Function.Injective (routineName field) := by
  intro first second heq
  exact eq_of_toString_eq ((String.append_right_inj field).mp heq)

theorem nodup_routineNames (field : String) (count : Nat) : (routineNames field count).Nodup :=
  List.nodup_range.map (routineName_injective field)

theorem RunsInto.exists_mem (hruns : RunsInto field count other otherCount) :
    ∃ name ∈ routineNames field count, name ∈ routineNames other otherCount := by
  obtain ⟨number, hpositive, rfl, hcount, hother⟩ := hruns
  refine ⟨routineName field (10 * number), mem_routineNames.mpr ⟨_, hcount, rfl⟩,
    mem_routineNames.mpr ⟨0, hother, ?_⟩⟩
  rw [routineName, routineName, toString_tenfold hpositive, String.append_assoc]

theorem RunsInto.of_eq {middle : String} {index index' : Nat} (hmiddle : middle ≠ "")
    (hother : other = field ++ middle) (hindex : index < count) (hindex' : index' < otherCount)
    (h : toString index = middle ++ toString index') : RunsInto field count other otherCount := by
  obtain ⟨number, hpositive, rfl, hle⟩ := exists_toString_eq_of_append hmiddle h
  exact ⟨number, hpositive, hother, by omega, by omega⟩

theorem RunsInto.ne (hruns : RunsInto field count other otherCount) : field ≠ other := by
  obtain ⟨number, _, hother, _⟩ := hruns
  intro heq
  rw [heq] at hother
  have hempty := String.append_eq_left_iff.mp hother.symm
  rw [Nat.toString_eq_repr] at hempty
  exact Nat.repr_ne_empty hempty

/-- Different fields have a name in common exactly if the names of one run into those of
the other. -/
theorem exists_mem_routineNames_iff (hne : field ≠ other) :
    (∃ name ∈ routineNames field count, name ∈ routineNames other otherCount) ↔
      RunsInto field count other otherCount ∨ RunsInto other otherCount field count := by
  constructor
  · rintro ⟨name, hname, hother⟩
    obtain ⟨index, hindex, rfl⟩ := mem_routineNames.mp hname
    obtain ⟨index', hindex', heq⟩ := mem_routineNames.mp hother
    rcases exists_of_append_eq_append heq with ⟨middle, hfield, hdigits⟩ | ⟨middle, hfield, hdigits⟩
    · right
      refine .of_eq ?_ hfield hindex' hindex hdigits
      rintro rfl
      exact hne (by simpa using hfield)
    · left
      refine .of_eq ?_ hfield hindex hindex' hdigits
      rintro rfl
      exact hne (by simpa using hfield.symm)
  · rintro (hruns | hruns)
    · exact hruns.exists_mem
    · obtain ⟨name, hname, hother⟩ := hruns.exists_mem
      exact ⟨name, hother, hname⟩

/-- The names of several fields are all different exactly if none run into others. -/
theorem nodup_flatMap_routineNames_iff {α : Type} {fieldOf : α → String} {countOf : α → Nat}
    {xs : List α} (hfields : (xs.map fieldOf).Nodup) :
    (xs.flatMap fun x => routineNames (fieldOf x) (countOf x)).Nodup ↔
      ∀ x ∈ xs, ∀ y ∈ xs, ¬RunsInto (fieldOf x) (countOf x) (fieldOf y) (countOf y) := by
  constructor
  · intro hnodup x hx y hy hruns
    have happart := (List.nodup_flatMap.mp hnodup).2
    have : Std.Symm (Function.onFun List.Disjoint fun x => routineNames (fieldOf x) (countOf x)) :=
      ⟨fun _ _ h _ hfirst hsecond => h hsecond hfirst⟩
    have hne : x ≠ y := fun heq => hruns.ne (congrArg fieldOf heq)
    obtain ⟨name, hname, hshared⟩ := hruns.exists_mem
    exact happart.forall hx hy hne hname hshared
  · intro hnone
    refine List.nodup_flatMap.mpr ⟨fun x _ => nodup_routineNames _ _, ?_⟩
    rw [List.Nodup, List.pairwise_map] at hfields
    refine hfields.imp_of_mem ?_
    intro x y hx hy hne name hname hshared
    rcases (exists_mem_routineNames_iff hne).mp ⟨name, hname, hshared⟩ with hruns | hruns
    · exact hnone x hx y hy hruns
    · exact hnone y hy x hx hruns

end Fragment

namespace Module

/-! ## Names of a module -/

/-- The names of the routines that the module opens. -/
def openedNames (module : Module) (capacity : Capacity) : List String :=
  (module.plan capacity).routines.map fun routine =>
    Fragment.routineName module.fieldName routine.index

/-- The names that the builder block calls. -/
def calledNames (module : Module) (capacity : Capacity) : List String :=
  if module.definitions.isEmpty then []
  else Fragment.routineNames module.fieldName (module.plan capacity).callCount

theorem openedNames_eq (module : Module) (capacity : Capacity) :
    module.openedNames capacity =
      Fragment.routineNames module.fieldName (module.openedNames capacity).length := by
  have hindices :=
    map_index_cutRoutines capacity 0 (Grouping.ofDefinitions module.definitions).units
  rw [← List.range_eq_range'] at hindices
  unfold openedNames Fragment.routineNames
  rw [List.length_map, routines_plan, ← hindices, List.map_map]
  rfl

theorem calledNames_eq (module : Module) (capacity : Capacity) :
    module.calledNames capacity =
      Fragment.routineNames module.fieldName (module.calledNames capacity).length := by
  unfold calledNames Fragment.routineNames
  split <;> simp

variable {module : Module} {settings : Settings} {index : Nat}

theorem callText_mem_layout_iff : module.callText index ∈ module.layout settings
      (module.builderTexts settings.capacity) (module.routineBodies settings.capacity) ↔
    Fragment.routineName module.fieldName index ∈ module.calledNames settings.capacity := by
  have hbodies := module.endsForeign_routineBodies settings.capacity
  rw [← List.count_pos_iff, count_callText_layout hbodies, List.count_pos_iff]
  unfold builderTexts calledNames Fragment.routineNames
  split
  · simp
  · rw [List.mem_append, List.mem_map_of_injective module.callText_injective,
      List.mem_map_of_injective (Fragment.routineName_injective _)]
    exact or_iff_right callText_not_mem_instanceTexts

theorem headerText_mem_layout_iff : module.headerText index ∈ module.layout settings
      (module.builderTexts settings.capacity) (module.routineBodies settings.capacity) ↔
    Fragment.routineName module.fieldName index ∈ module.openedNames settings.capacity := by
  have hbodies := module.onNewLine_routineBodies settings.capacity
  have hbuilder := module.headerText_not_mem_builderTexts index settings.capacity
  rw [mem_iff_of_count_eq (count_headerText_layout hbuilder hbodies), openedNames_eq,
    Fragment.routineNames, List.mem_map_of_injective (Fragment.routineName_injective _),
    List.mem_range, openedNames, routineBodies, List.length_map, List.length_map]

theorem received_subset_layout {σ : Type} (sink : Sink σ) (state : σ) :
    sink.received (module.sourceUnit settings) state ⊆
      module.layout settings (module.builderTexts settings.capacity)
        (module.routineBodies settings.capacity) := by
  intro text htext
  have hpieces := (sink.received_prefix_pieces _ state).subset htext
  obtain ⟨piece, hmem, hpiece⟩ := (module.follows_draft settings).exists_piece hpieces
  rw [← filterMap_script]
  exact List.mem_filterMap.mpr ⟨piece, hmem, hpiece⟩

end Module

/-! ## Names of a run -/

/-- Let the fields of all modules have different names. Then all routines of a run have
different names exactly if no module opens so many that its names run into those of
another one. A module calls a name of another one's routine exactly if the names it calls
run into those or the other way round. These are the names in the texts: whatever becomes
of a unit, its sink receives only signatures and calls of such names, and all of them when
the unit is completed. -/
theorem Metadata.nodup_openedNames_iff (metadata : Metadata) (settings : Settings)
    (hfields : (metadata.modules.map Module.fieldName).Nodup) :
    let modules := metadata.modules
    let opened := fun module : Module => module.openedNames settings.capacity
    let called := fun module : Module => module.calledNames settings.capacity
    ((modules.flatMap opened).Nodup ↔ ∀ module ∈ modules, ∀ other ∈ modules,
      ¬Fragment.RunsInto module.fieldName (opened module).length
        other.fieldName (opened other).length) ∧
    (∀ module ∈ modules, ∀ other ∈ modules, module ≠ other →
      ((∃ name ∈ called module, name ∈ opened other) ↔
        Fragment.RunsInto module.fieldName (called module).length
            other.fieldName (opened other).length ∨
          Fragment.RunsInto other.fieldName (opened other).length
            module.fieldName (called module).length)) ∧
    ∀ module ∈ modules, ∀ {σ : Type} (sink : Sink σ) (state : σ) (index : Nat),
      let received := sink.received (module.sourceUnit settings) state
      let name := Fragment.routineName module.fieldName index
      (module.headerText index ∈ received → name ∈ opened module) ∧
      (module.callText index ∈ received → name ∈ called module) ∧
      ((sink.deliver (module.sourceUnit settings) state).1 = .ok () →
        (name ∈ opened module → module.headerText index ∈ received) ∧
          (name ∈ called module → module.callText index ∈ received)) := by
  intro modules opened called
  have hopened : ∀ module, opened module =
      Fragment.routineNames module.fieldName (opened module).length :=
    fun module => module.openedNames_eq settings.capacity
  have hcalled : ∀ module, called module =
      Fragment.routineNames module.fieldName (called module).length :=
    fun module => module.calledNames_eq settings.capacity
  refine ⟨?_, ?_, ?_⟩
  · rw [← Fragment.nodup_flatMap_routineNames_iff hfields]
    simp only [← hopened]
    rfl
  · intro module hmodule other hother hne
    have hdifferent : module.fieldName ≠ other.fieldName := fun heq =>
      hne (List.inj_on_of_nodup_map hfields hmodule hother heq)
    rw [← Fragment.exists_mem_routineNames_iff hdifferent, ← hcalled, ← hopened]
  · intro module _ σ sink state index received name
    have hsubset : received ⊆ _ := Module.received_subset_layout sink state
    refine ⟨fun hmem => Module.headerText_mem_layout_iff.mp (hsubset hmem),
      fun hmem => Module.callText_mem_layout_iff.mp (hsubset hmem), ?_⟩
    intro hok
    have hreceived : received = _ := (Module.received_eq hok).2
    rw [hreceived]
    exact ⟨Module.headerText_mem_layout_iff.mpr, Module.callText_mem_layout_iff.mpr⟩

/-- Ten routines of one unit each, and a module whose field is numbered: all routines have
different names, but the eleventh call of the first module names the routine of the other. -/
theorem Metadata.nodup_openedNames_of_last_call :
    let item := fun number : Nat => Definition.ofType "app" ("Item" ++ toString number)
      { name := "single" }
    let settings : Settings := { capacity := ⟨1, by decide, by decide⟩ }
    let first := { Module.named "app" "A" with definitions := (List.range 10).map item }
    let second := { Module.named "app" "A1" with definitions := [item 0] }
    ([first, second].map Module.fieldName).Nodup ∧
    ([first, second].flatMap fun module => module.openedNames settings.capacity).Nodup ∧
    ∃ name ∈ first.calledNames settings.capacity, name ∈ second.openedNames settings.capacity := by
  intro item settings first second
  have hfields : ([first, second].map Module.fieldName).Nodup := by decide +kernel
  have hlengths : ∀ module ∈ [first, second],
      (module.openedNames settings.capacity).length ≤ 10 := by
    decide +kernel
  have hdifferent : first ≠ second := by decide +kernel
  obtain ⟨hnodup, hcalls, _⟩ :=
    Metadata.nodup_openedNames_iff { modules := [first, second] } settings hfields
  refine ⟨hfields, hnodup.mpr ?_, (hcalls first (by simp) second (by simp) hdifferent).mpr ?_⟩
  · rintro module hmodule other _ ⟨number, hpositive, _, hcount, _⟩
    have hlength := hlengths module hmodule
    change 10 * number < (module.openedNames settings.capacity).length at hcount
    omega
  · exact .inl ⟨1, by decide, by decide +kernel, by decide +kernel, by decide +kernel⟩

/-- With one more unit the first module opens a routine of the same signature as the
other, and both units are completed. -/
theorem Module.headerText_eq_of_numbered_field :
    let item := fun number : Nat => Definition.ofType "app" ("Item" ++ toString number)
      { name := "single" }
    let settings : Settings := { capacity := ⟨1, by decide, by decide⟩ }
    let first := { Module.named "app" "A" with definitions := (List.range 11).map item }
    let second := { Module.named "app" "A1" with definitions := [item 0] }
    let metadata : Metadata := { modules := [first, second] }
    (metadata.modules.map Module.fieldName).Nodup ∧
    ¬(metadata.modules.flatMap fun module => module.openedNames settings.capacity).Nodup ∧
    first.headerText 10 = second.headerText 0 ∧
    first.headerText 10 ∈ TextBuffer.sink.received (first.sourceUnit settings) {} ∧
    second.headerText 0 ∈ TextBuffer.sink.received (second.sourceUnit settings) {} ∧
    (UnitStore.factory.run (metadata.jobs settings) {}).completed =
      ["app_AGen.kt", "app_A1Gen.kt", "KoinDefault.kt"] := by
  decide +kernel

end Wiring
