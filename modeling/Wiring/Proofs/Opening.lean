import Mathlib.Data.Finset.Card
import Wiring.Proofs.Dispatch
import Wiring.Proofs.Text.Delimited

/-!
# The scopes that a unit opens

The statement that opens the block of a scope tells which scope it is, whatever its name
holds. Nothing else that is written looks like such a statement, and there is one block for
every scope, so no scope is opened twice in a unit.
-/

namespace Wiring

/-! ## Openings apart from each other -/

namespace Scope

/-- The name of a type stands between fixed texts, and a quoted name ends by itself. -/
theorem opening_injective : Function.Injective opening := by
  intro first second heq
  cases first with
  | type name =>
      cases second with
      | type other =>
          simp only [opening, String.append_left_inj, String.append_right_inj] at heq
          rw [heq]
      | named other =>
          -- the bracket behind the keyword is another one
          simp [opening, Fragment.newLine, Fragment.namedFunction, ← String.toList_inj] at heq
  | named name =>
      cases second with
      | type other =>
          simp [opening, Fragment.newLine, Fragment.namedFunction, ← String.toList_inj] at heq
      | named other =>
          simp only [opening, String.append_left_inj, String.append_right_inj] at heq
          rw [Text.literal_injective heq]

end Scope

/-! ## Openings apart from other texts -/

/-- The text looks like a statement that opens a block: it is indented and ends in a brace. -/
def IsOpening (text : String) : Prop :=
  StartsIn ["\n\t"] text ∧ EndsIn ["\x7b"] text

instance : DecidablePred IsOpening := fun text =>
  inferInstanceAs (Decidable ((∃ beginning ∈ ["\n\t"], beginning.toList <+: text.toList) ∧
    ∃ ending ∈ ["\x7b"], ending.toList <:+ text.toList))

theorem isOpening_opening (scope : Scope) : IsOpening scope.opening := by
  refine ⟨startsIn_opening scope, ?_⟩
  cases scope <;> exact EndsIn.append ⟨"\x7b", by decide, by decide⟩ _

theorem not_isOpening_of_endsIn {endings : List String} {text : String}
    (hend : EndsIn endings text) (hapart : ∀ ending ∈ endings, ∀ other ∈ ["\x7b"],
      ¬ending.toList <:+ other.toList ∧ ¬other.toList <:+ ending.toList) : ¬IsOpening text :=
  fun hopening => hend.ne hopening.2 hapart rfl

theorem not_isOpening_of_startsIn {beginnings : List String} {text : String}
    (hstart : StartsIn beginnings text) (hapart : ∀ beginning ∈ beginnings, ∀ other ∈ ["\n\t"],
      ¬beginning.toList <+: other.toList ∧ ¬other.toList <+: beginning.toList) :
    ¬IsOpening text :=
  fun hopening => hstart.ne hopening.1 hapart rfl

theorem not_isOpening_statement? {definition : Definition} {place : Place} {text : String}
    (h : definition.statement? place = some text) : ¬IsOpening text :=
  not_isOpening_of_endsIn (Definition.statement?_affixes h).2 (by decide)

/-! ## The openings of a unit -/

/-- The texts that look like openings, in order. -/
def openingsOf (texts : List String) : List String := texts.filter fun text => IsOpening text

@[simp] theorem openingsOf_append (texts others : List String) :
    openingsOf (texts ++ others) = openingsOf texts ++ openingsOf others :=
  List.filter_append ..

theorem openingsOf_eq_nil {texts : List String} (h : ∀ text ∈ texts, ¬IsOpening text) :
    openingsOf texts = [] :=
  List.filter_eq_nil_iff.mpr fun text htext => by simpa using h text htext

/-- Every block of a scope is opened once, and no statement opens one. -/
theorem openingsOf_registrationBlocks (place : Place) (definitions : List Definition) :
    openingsOf (registrationBlocks place definitions).flatten =
      (distinctScopes definitions).map Scope.opening := by
  have hunscoped : openingsOf ((definitionsIn none definitions).map fun definition =>
      (definition.statement? place).toList).flatten = [] := by
    apply openingsOf_eq_nil
    intro text htext
    obtain ⟨block, hblock, htext⟩ := List.mem_flatten.mp htext
    obtain ⟨definition, _, rfl⟩ := List.mem_map.mp hblock
    exact not_isOpening_statement? (Option.mem_toList.mp htext)
  have hscoped : ∀ scope : Scope, openingsOf (scope.opening ::
      (definitionsIn (some scope) definitions).filterMap (Definition.statement? place) ++
        [Fragment.scopeClosing]) = [scope.opening] := by
    intro scope
    have hmembers : openingsOf ((definitionsIn (some scope) definitions).filterMap
        (Definition.statement? place)) = [] := by
      apply openingsOf_eq_nil
      intro text htext
      obtain ⟨definition, _, hstatement⟩ := List.mem_filterMap.mp htext
      exact not_isOpening_statement? hstatement
    have hclosing : openingsOf [Fragment.scopeClosing] = [] := by decide
    have hopening : openingsOf [scope.opening] = [scope.opening] :=
      List.filter_cons_of_pos (by simpa using isOpening_opening scope)
    rw [← List.singleton_append, List.append_assoc, openingsOf_append, openingsOf_append, hopening,
      hmembers, hclosing]
    rfl
  rw [registrationBlocks, List.flatten_append, openingsOf_append, hunscoped, List.nil_append,
    ← List.flatMap_def, openingsOf, List.filter_flatMap]
  exact (List.flatMap_congr fun scope _ => hscoped scope).trans (List.flatMap_pure_eq_map _ _)

namespace Module

variable {module : Module} {settings : Settings}

theorem openingsOf_openingTexts : openingsOf (module.openingTexts settings) = [] := by
  apply openingsOf_eq_nil
  unfold openingTexts
  simp only [List.forall_mem_append, List.forall_mem_cons]
  refine ⟨⟨not_isOpening_of_endsIn (endsIn_moduleHeader _) (by decide),
    not_isOpening_of_endsIn (endsIn_importLines _) (by decide),
    not_isOpening_of_startsIn (startsIn_fieldOpening _ _) (by decide), List.forall_mem_nil _⟩, ?_⟩
  split
  next hempty => exact List.forall_mem_nil _
  next hincludes =>
    rw [List.forall_mem_singleton]
    have hending := endsIn_includesStatement fun hnil => hincludes (List.isEmpty_iff.mpr hnil)
    exact not_isOpening_of_endsIn hending (by decide)

theorem openingsOf_builderTexts (capacity : Capacity) :
    openingsOf (module.builderTexts capacity) = [] := by
  apply openingsOf_eq_nil
  unfold builderTexts
  split
  next hempty => exact List.forall_mem_nil _
  next hnonempty =>
    rw [List.forall_mem_append]
    refine ⟨?_, ?_⟩
    · intro text htext
      rw [instanceTexts, Option.mem_toList, Option.map_eq_some_iff] at htext
      obtain ⟨path, _, rfl⟩ := htext
      have hending : EndsIn ["()"] (Fragment.instanceStatement path) :=
        EndsIn.append ⟨"()", by decide, by decide⟩ _
      exact not_isOpening_of_endsIn hending (by decide)
    · intro text htext
      obtain ⟨index, _, rfl⟩ := List.mem_map.mp htext
      exact not_isOpening_of_endsIn (module.endsIn_callText index) (by decide)

/-- Around the bodies of the routines nothing is opened. -/
theorem openingsOf_routinesTexts (start : Nat) (bodies : List (List String)) :
    openingsOf (module.routinesTexts start bodies) = openingsOf bodies.flatten := by
  induction bodies generalizing start with
  | nil => rfl
  | cons body bodies ih =>
      have hheader : openingsOf [Fragment.routineGap, module.headerText start] = [] := by
        apply openingsOf_eq_nil
        simp only [List.forall_mem_cons]
        exact ⟨by decide, not_isOpening_of_startsIn (module.startsIn_headerText start) (by decide),
          List.forall_mem_nil _⟩
      have hclosing : openingsOf [Fragment.blockClosing] = [] := by decide
      rw [routinesTexts, routineTexts, List.flatten_cons]
      simp only [openingsOf_append, hheader, hclosing, ih, List.nil_append, List.append_nil]

/-- A module unit opens what the bodies of its routines open. -/
theorem openingsOf_layout (capacity : Capacity) (bodies : List (List String)) :
    openingsOf (module.layout settings (module.builderTexts capacity) bodies) =
      openingsOf bodies.flatten := by
  have hclosing : openingsOf [Fragment.blockClosing] = [] := by decide
  have haccessor : openingsOf
      [Fragment.accessor module.visibility module.path module.fieldName] = [] := by
    apply openingsOf_eq_nil
    rw [List.forall_mem_singleton]
    exact not_isOpening_of_startsIn (startsIn_accessor _ _ _) (by decide)
  simp only [layout, openingsOf_append, openingsOf_openingTexts, openingsOf_builderTexts, hclosing,
    openingsOf_routinesTexts, haccessor, List.nil_append, List.append_nil]

end Module

/-- The default unit opens what it registers. -/
theorem openingsOf_defaultLayout (settings : Settings) (sources : List Module)
    (registrations : List String) :
    openingsOf (defaultLayout settings sources registrations) = openingsOf registrations := by
  have hheader : EndsIn ["\n"] (Fragment.defaultHeader settings.generatedPackage) :=
    EndsIn.append ⟨"\n", by decide, by decide⟩ _
  have hfunction : StartsIn ["p"] Fragment.defaultOpening :=
    StartsIn.append ⟨"p", by decide, by decide⟩ _
  have hfront : openingsOf [Fragment.defaultHeader settings.generatedPackage,
      importLines (pooledDefinitions sources), Fragment.defaultOpening] = [] := by
    apply openingsOf_eq_nil
    simp only [List.forall_mem_cons]
    exact ⟨not_isOpening_of_endsIn hheader (by decide),
      not_isOpening_of_endsIn (endsIn_importLines _) (by decide),
      not_isOpening_of_startsIn hfunction (by decide), List.forall_mem_nil _⟩
  have hclosing : openingsOf [Fragment.blockClosing] = [] := by decide
  rw [defaultLayout, openingsOf_append, openingsOf_append, hfront, hclosing, List.nil_append,
    List.append_nil]

section Delivery

variable {σ : Type} {settings : Settings} {sink : Sink σ} {state : σ}

/-- A completed unit opens the block of every scope of its definitions once, in the order in
which the scopes come first. -/
theorem openingsOf_received {origin : Origin}
    (hok : (sink.deliver (origin.sourceUnit settings) state).1 = .ok ()) :
    openingsOf (sink.received (origin.sourceUnit settings) state) =
      (distinctScopes origin.definitions).map Scope.opening := by
  cases origin with
  | declared module =>
      change openingsOf (sink.received (module.sourceUnit settings) state) = _
      rw [(Module.received_eq hok).2, Module.openingsOf_layout, Module.flatten_routineBodies,
        openingsOf_registrationBlocks]
      rfl
  | pooled sources =>
      change openingsOf (sink.received (defaultUnit sources settings) state) = _
      rw [(received_defaultUnit_eq hok).2, openingsOf_defaultLayout, openingsOf_registrationBlocks]
      rfl

theorem length_distinctScopes (definitions : List Definition) :
    (distinctScopes definitions).length =
      (definitions.filterMap Definition.scope).toFinset.card := by
  have hsame : (distinctScopes definitions).toFinset =
      (definitions.filterMap Definition.scope).toFinset := by
    ext scope
    simp [distinctScopes]
  rw [← hsame]
  exact (List.toFinset_card_of_nodup (nodup_eraseDups _)).symm

/-- No unit opens the same scope twice. The opening of a block tells its scope, whatever the
names of scopes hold; and of the texts of a completed unit, those that look like openings are
those of the scopes of its definitions, each of them once. -/
theorem received_opens_no_scope_twice :
    (∀ first second : Scope, first.opening = second.opening ↔ first = second) ∧
    (∀ scope : Scope, IsOpening scope.opening) ∧
    ∀ (origin : Origin) (settings : Settings) (sink : Sink σ) (state : σ),
      (sink.deliver (origin.sourceUnit settings) state).1 = .ok () →
      let openings := (sink.received (origin.sourceUnit settings) state).filter (IsOpening ·)
      (∀ text, text ∈ openings ↔
        ∃ definition ∈ origin.definitions, ∃ scope,
          definition.scope = some scope ∧ text = scope.opening) ∧
      openings.Nodup ∧
      openings.length = (origin.definitions.filterMap Definition.scope).toFinset.card := by
  refine ⟨fun first second => Scope.opening_injective.eq_iff, isOpening_opening, ?_⟩
  intro origin settings sink state hok openings
  have hopenings : openings = (distinctScopes origin.definitions).map Scope.opening :=
    openingsOf_received hok
  rw [hopenings]
  refine ⟨?_, (nodup_eraseDups _).map Scope.opening_injective, ?_⟩
  · intro text
    simp only [List.mem_map, mem_distinctScopes]
    constructor
    · rintro ⟨scope, ⟨definition, hmem, hscope⟩, rfl⟩
      exact ⟨definition, hmem, scope, hscope, rfl⟩
    · rintro ⟨definition, hmem, scope, hscope, rfl⟩
      exact ⟨scope, ⟨definition, hmem, hscope⟩, rfl⟩
  · rw [List.length_map, length_distinctScopes]

/-- Two sources of the default module share a scope, and another one has the name of a type. -/
theorem received_opens_no_scope_twice_of_sources :
    let item (name : String) (scope : Scope) :=
      (Definition.ofType "app" name { name := "scoped" }).inScope scope
    let origin := Origin.pooled [
      { Module.named "app" "A" with definitions := [item "X" (.named "s"), item "Y" (.type "s")] },
      { Module.named "app" "B" with definitions := [item "Z" (.named "s")] }]
    let received := TextBuffer.sink.received (origin.sourceUnit {}) {}
    (TextBuffer.sink.deliver (origin.sourceUnit {}) {}).1 = .ok () ∧
      (received.filter (IsOpening ·)).Nodup ∧ (received.filter (IsOpening ·)).length = 2 := by
  intro item origin received
  have hstatements : AllStated origin.place origin.definitions := by decide
  have hok := origin.deliver_eq_ok Sink.isFaultFree_textBuffer hstatements {}
  obtain ⟨-, hnodup, hlength⟩ :=
    received_opens_no_scope_twice.2.2 origin {} TextBuffer.sink {} hok
  exact ⟨hok, hnodup, hlength.trans (by decide)⟩

end Delivery

end Wiring
