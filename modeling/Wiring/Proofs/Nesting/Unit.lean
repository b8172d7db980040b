import Wiring.Proofs.Affix
import Wiring.Proofs.Nesting.Registration

/-!
# Strings cannot break the structure of a unit

As long as what a unit copies is plain, the unit is correctly nested, and its literals
are those of the strings it quotes, in the order of their registration.
-/

namespace Wiring

/-! ## Whole units -/

theorem takes_importLines {definitions : List Definition}
    (hcopied : ∀ text ∈ definitions.flatMap Definition.copiedTexts, IsPlainText text) :
    Takes [] (importLines definitions) [] [] := by
  have hlines : ∀ line ∈ definitions.filterMap fun definition =>
      definition.keyword.importPath.map ("import " ++ ·), Takes [] line [] [] := by
    intro line hline
    obtain ⟨definition, hmem, hline⟩ := List.mem_filterMap.mp hline
    obtain ⟨path, hpath, rfl⟩ := Option.map_eq_some_iff.mp hline
    have hplain : IsPlainText path := by
      apply hcopied
      apply List.mem_flatMap_of_mem hmem
      simp [Definition.copiedTexts, hpath]
    exact (IsPlainText.append (by decide) hplain).takes
  exact (Takes.intercalate_silent (by decide) hlines).append_silent (by decide)

theorem takes_includesStatement {references : List ModuleRef}
    (hcopied : ∀ text ∈ references.flatMap fun reference => [reference.name, reference.package],
      IsPlainText text) :
    Takes [] (includesStatement references) [] [] := by
  have haccessors : ∀ text ∈ references.map ModuleRef.accessor, Takes [')'] text [')'] [] := by
    intro text htext
    obtain ⟨reference, hmem, rfl⟩ := List.mem_map.mp htext
    have hreference := List.forall_mem_flatMap.mp hcopied reference hmem
    have hpath : IsPlainText (qualify reference.package reference.name) :=
      IsPlainText.qualify (hreference _ (by simp)) (hreference _ (by simp))
    exact hpath.takes.append_silent (Takes.anywhere (by decide))
  have hopening : Takes [] (Fragment.newLine ++ "includes(") [')'] [] := by decide
  exact (hopening.append_silent (Takes.intercalate_silent (by decide) haccessors)).append_silent
    Takes.closing

theorem isPlainText_toString (index : Nat) : IsPlainText (toString index) := by
  intro c hc hbracket
  have hbrackets : ∀ bracket ∈ ['\x7b', '\x7d', '(', ')', '"'], bracket.isDigit = false := by
    simp
  exact not_mem_toString (hbrackets c hbracket) index hc

namespace Module

variable {module : Module} {settings : Settings}

theorem isPlainText_fieldName (hname : IsPlainText module.name)
    (hpackage : IsPlainText module.package) : IsPlainText module.fieldName := by
  have hunderscored : IsPlainText (String.ofList
      (module.package.toList.map fun c => if c = '.' then '_' else c)) := by
    intro c hc
    obtain ⟨source, hsource, rfl⟩ := List.mem_map.mp (String.toList_ofList ▸ hc)
    split
    · decide
    · exact hpackage source hsource
  unfold fieldName
  split
  · exact hname
  · exact (hunderscored.append (by decide)).append hname

theorem isPlainText_modifier (visibility : Visibility) :
    IsPlainText (Fragment.modifier visibility) := by
  cases visibility <;> decide

theorem takes_openingTexts
    (hcopied : ∀ text ∈ (Origin.declared module).copiedTexts settings, IsPlainText text) :
    Takes [] (String.join (module.openingTexts settings)) ['\x7d'] [] := by
  obtain ⟨hpackage, hrest⟩ := List.forall_mem_cons.mp hcopied
  obtain ⟨hdefinitions, hnames⟩ := List.forall_mem_append.mp hrest
  obtain ⟨hname, hmodule⟩ := List.forall_mem_cons.mp (List.forall_mem_append.mp hnames).1
  have hincluded := (List.forall_mem_append.mp hnames).2
  have hheader : IsPlainText (Fragment.moduleHeader settings.generatedPackage) :=
    ((IsPlainText.append (by decide) hpackage).append (by decide)).append (by decide)
  have hfield : IsPlainText ("\n" ++ Fragment.modifier module.visibility ++ "val " ++
      module.fieldName) :=
    ((IsPlainText.append (by decide) (isPlainText_modifier _)).append (by decide)).append
      (isPlainText_fieldName hname (hmodule _ List.mem_cons_self))
  have hbuilder : Takes [] " : Module = module \x7b" ['\x7d'] [] := by decide
  have hincludes : Takes ['\x7d'] (String.join (if (module.includes.getD []).isEmpty then []
      else [includesStatement (module.includes.getD [])])) ['\x7d'] [] := by
    split
    next => exact Takes.join_nil
    next => exact (takes_includesStatement hincluded).anywhere.join_cons Takes.join_nil
  exact (hheader.takes.join_cons ((takes_importLines hdefinitions).join_cons
    ((hfield.takes.append_silent hbuilder).join_cons Takes.join_nil))).join_append hincludes

section Plain

variable (hname : IsPlainText module.name) (hpackage : IsPlainText module.package)

include hname hpackage

theorem isPlainText_routineName (index : Nat) :
    IsPlainText (Fragment.routineName module.fieldName index) :=
  (isPlainText_fieldName hname hpackage).append (isPlainText_toString index)

theorem isPlainText_of_instanceType {path : String} (hinstance : module.instanceType = some path) :
    IsPlainText path := by
  unfold instanceType at hinstance
  split at hinstance
  next =>
    obtain rfl := Option.some.inj hinstance
    exact hpackage.qualify hname
  next => cases hinstance

theorem takes_callText (index : Nat) {due : List Char} :
    Takes due (module.callText index) due [] := by
  have hargument :
      IsPlainText (if module.instanceType.isSome then Fragment.instanceName else "") := by
    split <;> decide
  have hcalled : IsPlainText (Fragment.newLine ++ Fragment.routineName module.fieldName index) :=
    IsPlainText.append (by decide) (isPlainText_routineName hname hpackage index)
  exact ((hcalled.takes.append_silent Takes.opening).append_silent hargument.takes).append_silent
    Takes.closing

theorem takes_headerText (index : Nat) : Takes [] (module.headerText index) ['\x7d'] [] := by
  have hnamed : IsPlainText (Fragment.modifier module.visibility ++ "fun Module." ++
      Fragment.routineName module.fieldName index) :=
    ((isPlainText_modifier _).append (by decide)).append
      (isPlainText_routineName hname hpackage index)
  have hclosing : Takes [')'] ")\x7b" ['\x7d'] [] := by decide
  have hheader : ∀ {parameter : String}, IsPlainText parameter →
      Takes [] (Fragment.modifier module.visibility ++ "fun Module." ++
        Fragment.routineName module.fieldName index ++ "(" ++ parameter ++ ")\x7b") ['\x7d'] [] :=
    fun hparameter => ((hnamed.takes.append_silent Takes.opening).append_silent
      hparameter.takes).append_silent hclosing
  cases hinstance : module.instanceType with
  | none =>
      rw [headerText, hinstance]
      exact hheader (show IsPlainText "" by decide)
  | some path =>
      rw [headerText, hinstance]
      exact hheader (IsPlainText.append (by decide)
        (isPlainText_of_instanceType hname hpackage hinstance))

theorem takes_builderTexts (capacity : Capacity) {due : List Char} :
    Takes due (String.join (module.builderTexts capacity)) due [] := by
  have hinstance : ∀ text ∈ module.instanceTexts, Takes due text due [] := by
    intro text htext
    obtain ⟨path, hinstance, rfl⟩ := Option.map_eq_some_iff.mp (Option.mem_toList.mp htext)
    have hpath := isPlainText_of_instanceType hname hpackage hinstance
    have hopening : IsPlainText (Fragment.newLine ++ "val " ++ Fragment.instanceName ++ " = ") := by
      decide
    exact (hopening.append hpath).takes.append_silent (Takes.anywhere (by decide))
  unfold builderTexts
  split
  next => exact Takes.join_nil
  next =>
    apply Takes.join_silent
    refine List.forall_mem_append.mpr ⟨hinstance, List.forall_mem_map.mpr ?_⟩
    intro index _
    exact takes_callText hname hpackage index

/-- Routines close what they open, each with its own body. -/
theorem takes_routinesTexts {α : Type} {bodyOf : α → List String}
    {literalsOf : α → List String} {items : List α}
    (hbodies : ∀ item ∈ items, ∀ due,
      Takes due (String.join (bodyOf item)) due (literalsOf item))
    (index : Nat) :
    Takes [] (String.join (module.routinesTexts index (items.map bodyOf))) []
      (items.flatMap literalsOf) := by
  induction items generalizing index with
  | nil => exact Takes.join_nil
  | cons item items ih =>
      obtain ⟨hbody, hrest⟩ := List.forall_mem_cons.mp hbodies
      have hgap : Takes [] Fragment.routineGap [] [] := by decide
      have hclosing : Takes ['\x7d'] Fragment.blockClosing [] [] := by decide
      have hroutine := ((hgap.join_cons ((takes_headerText hname hpackage index).join_cons
        Takes.join_nil)).join_append (hbody _)).join_append (hclosing.join_cons Takes.join_nil)
      simp only [List.nil_append, List.append_nil] at hroutine
      exact hroutine.join_append (ih hrest (index + 1))

end Plain

/-- A module unit closes what it opens. -/
theorem takes_layout {capacity : Capacity}
    (hcopied : ∀ text ∈ (Origin.declared module).copiedTexts settings, IsPlainText text)
    (hstated : AllStated (.routine Fragment.instanceName) module.definitions) :
    Takes [] (String.join (module.layout settings (module.builderTexts capacity)
        (module.routineBodies capacity))) []
      ((Origin.declared module).quotedTexts.map Text.literal) := by
  obtain ⟨hdefinitions, hnames⟩ := List.forall_mem_append.mp (List.forall_mem_cons.mp hcopied).2
  obtain ⟨hname, hmodule⟩ := List.forall_mem_cons.mp (List.forall_mem_append.mp hnames).1
  have hpackage := hmodule _ List.mem_cons_self
  have hclosing : Takes ['\x7d'] Fragment.blockClosing [] [] := by decide
  have hbuilder := ((takes_openingTexts hcopied).join_append
    (takes_builderTexts hname hpackage capacity)).join_append (hclosing.join_cons Takes.join_nil)
  have hbodies : ∀ routine ∈ (module.plan capacity).routines, ∀ due,
      Takes due (String.join (routine.units.flatMap
        (EmissionUnit.texts (.routine Fragment.instanceName)))) due
        ((routine.units.flatMap EmissionUnit.quotedTexts).map Text.literal) := by
    intro routine hroutine due
    apply takes_units hdefinitions _ hstated
    · intro unit hunit
      exact mem_units_of_mem_routines hroutine hunit
    · rintro instanceName ⟨⟩
      decide
  have hroutines := takes_routinesTexts hname hpackage hbodies 0
  have haccessor : Takes [] (Fragment.accessor module.visibility module.path module.fieldName)
      [] [] := by
    have hpath : IsPlainText module.path := hpackage.qualify hname
    have hfield := isPlainText_fieldName hname hpackage
    have hfront : IsPlainText ("\n" ++ Fragment.modifier module.visibility ++ "val " ++
        module.path ++ ".module : " ++ Fragment.moduleType) :=
      ((((IsPlainText.append (by decide) (isPlainText_modifier _)).append (by decide)).append
        hpath).append (by decide)).append (by decide)
    have hget : Takes [] " get() = " [] [] := by decide
    exact (hfront.takes.append_silent hget).append_silent hfield.takes
  have hunit := (hbuilder.join_append hroutines).join_append (haccessor.join_cons Takes.join_nil)
  have hquoted : (module.plan capacity).routines.flatMap (fun routine =>
      (routine.units.flatMap EmissionUnit.quotedTexts).map Text.literal) =
      (Origin.declared module).quotedTexts.map Text.literal := by
    unfold Origin.quotedTexts
    rw [← List.map_flatMap, ← List.flatMap_assoc, routines_plan, flatMap_units_cutRoutines]
    rfl
  simp only [hquoted, List.nil_append, List.append_nil] at hunit
  exact hunit

end Module

/-- The default unit closes what it opens. -/
theorem takes_defaultLayout {sources : List Module} {settings : Settings}
    (hcopied : ∀ text ∈ (Origin.pooled sources).copiedTexts settings, IsPlainText text)
    (hstated : AllStated .defaultModule (pooledDefinitions sources)) :
    Takes [] (String.join (defaultLayout settings sources
        (registrationBlocks .defaultModule (pooledDefinitions sources)).flatten)) []
      ((Origin.pooled sources).quotedTexts.map Text.literal) := by
  obtain ⟨hpackage, hrest⟩ := List.forall_mem_cons.mp hcopied
  have hdefinitions := (List.forall_mem_append.mp hrest).1
  have hheader : IsPlainText (Fragment.defaultHeader settings.generatedPackage) :=
    ((IsPlainText.append (by decide) hpackage).append (by decide)).append (by decide)
  have hopening : Takes [] Fragment.defaultOpening ['\x7d'] [] := by decide +kernel
  have hclosing : Takes ['\x7d'] Fragment.blockClosing [] [] := by decide
  have hunits : Takes ['\x7d'] (String.join ((Grouping.ofDefinitions
      (pooledDefinitions sources)).units.flatMap (EmissionUnit.texts .defaultModule))) ['\x7d']
      ((Origin.pooled sources).quotedTexts.map Text.literal) :=
    takes_units hdefinitions (by rintro _ ⟨⟩) hstated (List.Subset.refl _)
  have hfront := hheader.takes.join_cons ((takes_importLines hdefinitions).join_cons
    (hopening.join_cons Takes.join_nil))
  have hunit := (hfront.join_append hunits).join_append (hclosing.join_cons Takes.join_nil)
  simp only [List.nil_append, List.append_nil] at hunit
  rw [flatMap_texts_units] at hunit
  exact hunit

/-! ## What a sink receives -/

theorem Definition.exists_of_mem_quotedTexts {definition : Definition} {quoted : String}
    (h : quoted ∈ definition.quotedTexts) :
    definition.qualifier = some quoted ∨ ∃ parameter ∈ definition.parameters,
      (∃ isNullable isLazy, parameter = .dependency (some quoted) isNullable isLazy) ∨
      ∃ isNullable, parameter = .property quoted isNullable := by
  rcases List.mem_append.mp h with hqualifier | hparameters
  · exact Or.inl (Option.mem_toList.mp hqualifier)
  · obtain ⟨parameter, hmem, hquoted⟩ := List.mem_flatMap.mp hparameters
    refine Or.inr ⟨parameter, hmem, ?_⟩
    cases parameter with
    | dependency qualifier isNullable isLazy =>
        obtain rfl : qualifier = some quoted := Option.mem_toList.mp hquoted
        exact Or.inl ⟨isNullable, isLazy, rfl⟩
    | property key isNullable =>
        obtain rfl := List.mem_singleton.mp hquoted
        exact Or.inr ⟨isNullable, rfl⟩
    | injected isNullable => cases hquoted
    | all => cases hquoted

/-- Every string that a source unit quotes is a qualifier or a property key of one of
its definitions, or names the scope of one. -/
theorem Origin.exists_of_mem_quotedTexts {origin : Origin} {quoted : String}
    (h : quoted ∈ origin.quotedTexts) :
    ∃ definition ∈ origin.definitions, definition.scope = some (.named quoted) ∨
      definition.qualifier = some quoted ∨ ∃ parameter ∈ definition.parameters,
        (∃ isNullable isLazy, parameter = .dependency (some quoted) isNullable isLazy) ∨
        ∃ isNullable, parameter = .property quoted isNullable := by
  obtain ⟨unit, hunit, hquoted⟩ := List.mem_flatMap.mp h
  rw [Grouping.units_ofDefinitions] at hunit
  rcases List.mem_append.mp hunit with hsingle | hgroup
  · obtain ⟨definition, hmem, rfl⟩ := List.mem_map.mp hsingle
    exact ⟨definition, (mem_definitionsIn.mp hmem).1,
      Or.inr (Definition.exists_of_mem_quotedTexts hquoted)⟩
  · obtain ⟨scope, hscope, rfl⟩ := List.mem_map.mp hgroup
    rcases List.mem_append.mp hquoted with hnamed | hmembers
    · obtain ⟨definition, hmem, heq⟩ := mem_distinctScopes.mp hscope
      refine ⟨definition, hmem, Or.inl ?_⟩
      cases scope with
      | type name => cases hnamed
      | named name =>
          obtain rfl := List.mem_singleton.mp hnamed
          exact heq
    · obtain ⟨definition, hmem, hquoted⟩ := List.mem_flatMap.mp hmembers
      exact ⟨definition, (mem_definitionsIn.mp hmem).1,
        Or.inr (Definition.exists_of_mem_quotedTexts hquoted)⟩

section Delivery

variable {σ : Type} {origin : Origin} {settings : Settings} {sink : Sink σ} {state : σ}

/-- Strings cannot break the structure of a unit. Where the strings that are copied hold
no brace, parenthesis or double quote, a completed unit is correctly nested, whatever
the strings are that it quotes. Its literals are the literals of just these strings, in
order, and none of them goes beyond its line. -/
theorem received_is_nested
    (hok : (sink.deliver (origin.sourceUnit settings) state).1 = .ok ())
    (hcopied : ∀ text ∈ origin.copiedTexts settings, IsPlainText text) :
    scanLiterals (String.join (sink.received (origin.sourceUnit settings) state)) =
      some (origin.quotedTexts.map Text.literal) ∧
    (∀ literal ∈ origin.quotedTexts.map Text.literal, ∀ c ∈ literal.toList,
      Scanner.isLineBreak c = false) ∧
    ∀ quoted ∈ origin.quotedTexts, ∃ definition ∈ origin.definitions,
      definition.scope = some (.named quoted) ∨ definition.qualifier = some quoted ∨
      ∃ parameter ∈ definition.parameters,
        (∃ isNullable isLazy, parameter = .dependency (some quoted) isNullable isLazy) ∨
        ∃ isNullable, parameter = .property quoted isNullable := by
  refine ⟨?_, ?_, fun quoted hquoted => Origin.exists_of_mem_quotedTexts hquoted⟩
  · apply scanLiterals_of_takes
    cases origin with
    | declared module =>
        obtain ⟨hstated, hreceived⟩ := Module.received_eq hok
        rw [Origin.sourceUnit, hreceived]
        exact Module.takes_layout hcopied hstated
    | pooled sources =>
        obtain ⟨hstated, hreceived⟩ := received_defaultUnit_eq hok
        rw [Origin.sourceUnit, hreceived]
        exact takes_defaultLayout hcopied hstated
  · intro literal hliteral c hc
    obtain ⟨text, _, rfl⟩ := List.mem_map.mp hliteral
    exact not_isLineBreak_of_mem_literal hc

/-- Quotes, backslashes, brackets and line ends in what is quoted. -/
theorem received_is_nested_of_brackets :
    let named := (Definition.ofType "app" "Item" { name := "scoped" }).inScope
      (.named "\x7d\n(\"")
    let origin := Origin.declared { Module.named "app" "Main" with
      definitions := [((Definition.ofType "app" "Store" { name := "single" }).qualified
          "\\\") \x7d").withParameter (.property "\x7b$" false), named] }
    (TextBuffer.sink.deliver (origin.sourceUnit {}) {}).1 = .ok () ∧
    (∀ text ∈ origin.copiedTexts {}, IsPlainText text) ∧
    scanLiterals (String.join (TextBuffer.sink.received (origin.sourceUnit {}) {})) =
      some ["\"\\\\\\\") \x7d\"", "\"\x7b\\$\"", "\"\x7d\\n(\\\"\""] := by
  intro named origin
  have hstated : AllStated origin.place origin.definitions := by decide
  have hok := origin.deliver_eq_ok Sink.isFaultFree_textBuffer hstated {}
  have hcopied : ∀ text ∈ origin.copiedTexts {}, IsPlainText text := by decide
  refine ⟨hok, hcopied, (received_is_nested hok hcopied).1.trans ?_⟩
  decide

end Delivery

end Wiring
