import Mathlib.Data.List.TakeWhile
import Wiring.Inspect
import Wiring.Proofs.Inspect
import Wiring.Proofs.Partition
import Wiring.Sink.Memory

/-!
# Plans of numbered types

A module of numbered types is registered as it was planned: inspection of its text finds
the statements of each routine and the calls, whatever the names in its path are.
-/

namespace Wiring

namespace Fixture

open Inspect
open Text (Avoids Clear IsLine onLines)

/-! ## Modules of numbered types -/

/-- The type with a number. -/
def numberedType (package : String) (index : Nat) : Definition :=
  .ofType package ("C" ++ toString index) { name := "single" }

/-- The module of the first types with a number. -/
def numberedModule (package name : String) (count : Nat) : Module :=
  { name, package, definitions := (List.range count).map (numberedType package) }

/-- The statement that registers the type with a number. -/
def typeStatement (package : String) (index : Nat) : String :=
  "\n\t\t\t\tsingle() \x7b " ++ package ++ ".C" ++ toString index ++ "() \x7d"

/-- The numbers of the types that a routine is to register. -/
def dueIndices (capacity : Capacity) (count position : Nat) : List Nat :=
  List.range' (position * capacity.rows)
    (min ((position + 1) * capacity.rows) count - position * capacity.rows)

variable {package name field : String} {count : Nat} {capacity : Capacity}

/-- A path is split behind its last dot. -/
theorem splitPath_append (package : String) (hname : '.' ∉ name.toList) :
    splitPath (package ++ "." ++ name) = (package, name) := by
  have hkept : ∀ c ∈ name.toList.reverse, decide (c ≠ '.') = true := by
    intro c hc
    have hne : c ≠ '.' := fun heq => hname (List.mem_reverse.mp (heq ▸ hc))
    simpa using hne
  have hreversed : (package ++ "." ++ name).toList.reverse =
      name.toList.reverse ++ '.' :: package.toList.reverse := by
    simp
  unfold splitPath
  dsimp only
  rw [hreversed, List.takeWhile_append_of_pos hkept, List.dropWhile_append_of_pos hkept]
  simp

theorem moduleWithClasses_append (package : String) (hname : '.' ∉ name.toList) (count : Nat) :
    moduleWithClasses (package ++ "." ++ name) count = numberedModule package name count := by
  have htype : ∀ index : Nat, classAt (package ++ ".C" ++ toString index) =
      numberedType package index := by
    intro index
    have hdot : '.' ∉ ("C" ++ toString index).toList := by
      simpa using not_mem_toString (c := '.') (by decide) index
    have hpath : package ++ ".C" ++ toString index = package ++ "." ++ ("C" ++ toString index) := by
      simp only [String.append_assoc]
      rfl
    rw [classAt, hpath, splitPath_append package hdot]
    rfl
  unfold moduleWithClasses moduleAt
  rw [splitPath_append package hname]
  simp only [htype]
  rfl

theorem numberedType_injective (package : String) :
    Function.Injective (numberedType package) := by
  intro first second heq
  have hname : "C" ++ toString first = "C" ++ toString second := congrArg Definition.name heq
  exact eq_of_toString_eq ((String.append_right_inj "C").mp hname)

theorem isBlankText_numbered (index : Nat) : Text.isBlankText ("C" ++ toString index) = false := by
  have hmem : 'C' ∈ ("C" ++ toString index).toList.reverse := by simp
  have hfront : ("C" ++ toString index).toList.dropWhile Text.isBlank =
      ("C" ++ toString index).toList := by
    rw [String.toList_append]
    rfl
  unfold Text.isBlankText Text.trimChars
  rw [hfront, List.isEmpty_reverse, List.isEmpty_eq_false_iff, ne_eq, List.dropWhile_eq_nil_iff]
  intro hblank
  exact absurd (hblank 'C' hmem) (by decide)

theorem statement?_numberedType (hpackage : package ≠ "") (place : Place) (index : Nat) :
    (numberedType package index).statement? place = some (typeStatement package index) := by
  have hqualified : qualify package ("C" ++ toString index) =
      package ++ ".C" ++ toString index := by
    rw [qualify, if_neg (by simpa using hpackage)]
    simp only [String.append_assoc]
    rfl
  have hstatement : (numberedType package index).statement place =
      .ok (typeStatement package index) := by
    have hname : Text.isBlankText (numberedType package index).name = false :=
      isBlankText_numbered index
    have htarget : (numberedType package index).provider.target
        (numberedType package index).package place = .ok (package ++ ".C" ++ toString index) := by
      rw [← hqualified]
      rfl
    have hfront : Fragment.newLine ++ (numberedType package index).keyword.name ++ "(" ++
        (numberedType package index).options ++ ") \x7b " ++ (numberedType package index).receiver =
          "\n\t\t\t\tsingle() \x7b " := by
      have hoptions : (numberedType package index).options = "" := by
        simp [Definition.options, numberedType, Definition.ofType]
      rw [hoptions]
      rfl
    have harguments : (numberedType package index).arguments = "" := by
      simp [Definition.arguments, numberedType, Definition.ofType]
    have hbindings : (numberedType package index).bindingText = "" := rfl
    unfold Definition.statement
    rw [if_neg (by simp [hname]), htarget]
    dsimp only
    have hend : "(" ++ ") \x7d" = "() \x7d" := by decide
    rw [hfront, harguments, hbindings]
    refine congrArg Except.ok ?_
    unfold typeStatement
    simp only [String.append_assoc, String.append_empty, hend]
  rw [Definition.statement?, hstatement]
  rfl

/-- No number comes twice and no type has a scope, so each type is a unit. -/
theorem units_numberedModule (package name : String) (count : Nat) :
    (Grouping.ofDefinitions (numberedModule package name count).definitions).units =
      (List.range count).map fun index => .single (numberedType package index) := by
  have hnodup : ((List.range count).map (numberedType package)).Nodup :=
    List.nodup_range.map (numberedType_injective package)
  have hunscoped : definitionsIn none ((List.range count).map (numberedType package)) =
      (List.range count).map (numberedType package) := by
    unfold definitionsIn
    rw [eraseDups_of_nodup hnodup]
    apply List.filter_eq_self.mpr
    intro definition hmem
    obtain ⟨index, -, rfl⟩ := List.mem_map.mp hmem
    rfl
  have hscopes : distinctScopes ((List.range count).map (numberedType package)) = [] := by
    unfold distinctScopes
    rw [List.filterMap_map]
    simp [numberedType, Definition.ofType]
  rw [Grouping.units_ofDefinitions]
  unfold numberedModule
  rw [hunscoped, hscopes, List.map_nil, List.append_nil, List.map_map]
  rfl

/-- Each routine registers the types where the routines before it leave off. -/
theorem routineBodies_numberedModule (hpackage : package ≠ "") :
    (numberedModule package name count).routineBodies capacity =
      (List.range (routineCount capacity count)).map fun position =>
        (dueIndices capacity count position).map (typeStatement package) := by
  have htexts : ∀ indices : List Nat,
      (indices.map fun index => EmissionUnit.single (numberedType package index)).flatMap
        (EmissionUnit.texts (.routine Fragment.instanceName)) =
          indices.map (typeStatement package) := by
    intro indices
    rw [List.flatMap_map]
    simp only [EmissionUnit.texts, statement?_numberedType hpackage, Option.toList_some]
    exact List.flatMap_pure_eq_map _ _
  have hunits := map_units_cutRoutines capacity 0
    (Grouping.ofDefinitions (numberedModule package name count).definitions).units
  have hbodies : (numberedModule package name count).routineBodies capacity =
      ((cutRoutines capacity 0 (Grouping.ofDefinitions
        (numberedModule package name count).definitions).units).map Routine.units).map
          fun units => units.flatMap (EmissionUnit.texts (.routine Fragment.instanceName)) := by
    rw [Module.routineBodies_eq, List.map_map]
    rfl
  rw [hbodies, hunits, units_numberedModule, List.length_map, List.length_range, List.map_map]
  apply List.map_congr_left
  intro position _
  rw [Function.comp_apply, ← List.map_drop, ← List.map_take, htexts]
  congr 1
  unfold dueIndices
  rw [List.take_drop, List.take_range, List.range_eq_range', List.drop_range']
  simp [Nat.succ_mul]

/-! ## Names in the text -/

theorem fieldName_numberedModule (hpackage : package ≠ "") (name : String) (count : Nat) :
    (numberedModule package name count).fieldName =
      String.ofList (package.toList.map fun c => if c = '.' then '_' else c) ++ "_" ++ name := by
  unfold Module.fieldName
  exact if_neg (by simpa [numberedModule] using hpackage)

theorem isPath_fieldName (hpackage : package ≠ "") (hpath : IsPath package) (hname : IsPath name) :
    IsPath (numberedModule package name count).fieldName := by
  rw [fieldName_numberedModule hpackage]
  refine (IsPath.append ?_ (isPath_of_all (by decide))).append hname
  intro c hc
  rw [String.toList_ofList] at hc
  obtain ⟨d, hd, rfl⟩ := List.mem_map.mp hc
  split
  · rfl
  · exact hpath d hd

theorem underscore_mem_fieldName (hpackage : package ≠ "") :
    '_' ∈ (numberedModule package name count).fieldName.toList := by
  rw [fieldName_numberedModule hpackage]
  simp

theorem isPath_path (hpackage : package ≠ "") (hpath : IsPath package) (hname : IsPath name) :
    IsPath (numberedModule package name count).path := by
  have hqualified : (numberedModule package name count).path = package ++ "." ++ name := by
    unfold Module.path qualify
    exact if_neg (by simpa [numberedModule] using hpackage)
  rw [hqualified]
  exact (hpath.append (isPath_of_all (by decide))).append hname

/-- The line on which the statement of a type stands. -/
def typeLine (package : String) (index : Nat) : String :=
  "\t\t\t\tsingle() \x7b " ++ (package ++ ".C" ++ toString index) ++ "() \x7d"

theorem typeStatement_eq (package : String) (index : Nat) :
    typeStatement package index = "\n" ++ typeLine package index := by
  unfold typeStatement typeLine
  rw [← String.toList_inj]
  simp

theorem toList_typeLine (package : String) (index : Nat) : (typeLine package index).toList =
    "\t\t\t\t".toList ++ ("single(".toList ++ (") \x7b ".toList ++
      (package ++ ".C" ++ toString index ++ "() \x7d").toList)) := by
  unfold typeLine
  simp

theorem isPath_numbered (hpath : IsPath package) (index : Nat) :
    IsPath (package ++ ".C" ++ toString index) :=
  (hpath.append (isPath_of_all (by decide))).append (isPath_toString index)

theorem isLine_typeLine (hpath : IsPath package) (index : Nat) : IsLine (typeLine package index) :=
  (IsLine.append (by decide) (isPath_numbered hpath index).isLine).append (by decide)

theorem signatureFree_typeStatement (hpath : IsPath package) (index : Nat) :
    SignatureFree field (typeStatement package index) := by
  rw [typeStatement_eq]
  exact (signatureFree_of_not_mem (by decide)).append
    (signatureFree_path (isPath_numbered hpath index) (by decide) (by decide) (by decide))

theorem closingFree_typeStatement (hpath : IsPath package) (index : Nat) :
    ClosingFree (typeStatement package index) := by
  rw [typeStatement_eq]
  refine closingFree_line (isLine_typeLine hpath index) ?_ ?_
  · simp [← String.toList_inj, toList_typeLine]
  · rw [toList_typeLine]
    exact fun heq => absurd (Option.some.inj heq) (by decide)

/-- A statement is no call, since the name of a field has more than one part. -/
theorem hasCalls_typeStatement (hfield : IsPath field) (hparts : '_' ∈ field.toList)
    (hpath : IsPath package) (index : Nat) : HasCalls field (typeStatement package index) [] := by
  rw [typeStatement_eq]
  refine hasCalls_of_isCall_eq_false (isLine_typeLine hpath index) ?_
  apply Bool.eq_false_iff.mpr
  intro hcall
  have hprefix := List.isPrefixOf_iff_prefix.mp hcall
  rw [toList_typeLine, callStart, String.toList_append, List.prefix_append_right_inj] at hprefix
  -- the keyword is no beginning of the field, nor the field one of the keyword
  rcases List.prefix_or_prefix_of_prefix hprefix (List.prefix_append _ _) with hshort | hlong
  · exact absurd (hshort.subset hparts) (by decide)
  · exact hfield.not_mem (c := '(') (by decide) (hlong.subset (by decide))

/-! ## The texts of the module -/

theorem instanceType_numberedModule (package name : String) (count : Nat) :
    (numberedModule package name count).instanceType = none := by
  have hmembers : (numberedModule package name count).hasMembers = false := by
    simp [numberedModule, Module.hasMembers, numberedType, Definition.ofType,
      Definition.isMember, Provider.isMember]
  rw [Module.instanceType, hmembers]
  rfl

theorem importLines_numberedModule (package name : String) (count : Nat) :
    importLines (numberedModule package name count).definitions = "\n" := by
  have hnone : (numberedModule package name count).definitions.filterMap
      (fun definition => definition.keyword.importPath.map ("import " ++ ·)) = [] := by
    simp [numberedModule, numberedType, Definition.ofType]
  rw [importLines, hnone]
  rfl

theorem callText_numberedModule (package name : String) (count index : Nat) :
    (numberedModule package name count).callText index =
      Fragment.newLine ++ ((numberedModule package name count).fieldName ++ toString index) ++
        "()" := by
  have hend : "(" ++ ("" ++ ")") = "()" := by decide
  unfold Module.callText Fragment.routineCall Fragment.routineName
  rw [instanceType_numberedModule]
  simp only [Option.isSome_none, Bool.false_eq_true, if_false, String.append_assoc, hend]

theorem builderTexts_numberedModule (package name : String) (count : Nat) :
    (numberedModule package name count).builderTexts capacity =
      if count = 0 then []
      else (List.range (count / capacity.rows + 1)).map
        (numberedModule package name count).callText := by
  have hcount : ((numberedModule package name count).plan capacity).callCount =
      count / capacity.rows + 1 := by
    have hunits := congrArg List.length (units_numberedModule package name count)
    rw [List.length_map, List.length_range] at hunits
    rw [Module.plan, RoutinePlan.callCount_ofUnits, hunits]
  have hempty : (numberedModule package name count).definitions.isEmpty = true ↔ count = 0 := by
    simp [numberedModule]
  unfold Module.builderTexts Module.instanceTexts
  rw [instanceType_numberedModule, hcount]
  simp only [hempty]
  rfl

/-! ## What is found in the text -/

/-- The text of the module. -/
def moduleText (package name : String) (count : Nat) (capacity : Capacity) : String :=
  let module := numberedModule package name count
  String.join (module.layout { capacity } (module.builderTexts capacity)
    (module.routineBodies capacity))

theorem render_numberedModule (hpackage : package ≠ "") :
    ((numberedModule package name count).sourceUnit { capacity }).render =
      .ok (moduleText package name count capacity) := by
  have hstated : AllStated (.routine Fragment.instanceName)
      (numberedModule package name count).definitions := by
    intro definition hmem
    obtain ⟨index, -, rfl⟩ := List.mem_map.mp hmem
    rw [statement?_numberedType hpackage]
    rfl
  have hstop : ((numberedModule package name count).draft { capacity }).stop = none :=
    Module.stop_draft_eq_none.mpr hstated
  unfold SourceUnit.render Module.sourceUnit
  dsimp only
  rw [hstop]
  exact congrArg (Except.ok ∘ String.join) (Module.pieces_draft hstated)

theorem openingTexts_numberedModule (package name : String) (count : Nat) (settings : Settings) :
    (numberedModule package name count).openingTexts settings =
      [Fragment.moduleHeader settings.generatedPackage, "\n",
        Fragment.fieldOpening .exported (numberedModule package name count).fieldName] := by
  unfold Module.openingTexts
  rw [importLines_numberedModule]
  rfl

/-- No signature begins in front of the routines. -/
theorem signatureFree_front (hpackage : package ≠ "") (hpath : IsPath package) (hname : IsPath name)
    (count : Nat) (capacity : Capacity) :
    ∀ text ∈ (numberedModule package name count).openingTexts { capacity } ++
        (numberedModule package name count).builderTexts capacity,
      SignatureFree field text := by
  have hfield : IsPath (numberedModule package name count).fieldName :=
    isPath_fieldName hpackage hpath hname
  have hheader : 'f' ∉ (Fragment.moduleHeader "org.koin.ksp.generated").toList := by
    decide +kernel
  have hopening : SignatureFree field
      (Fragment.fieldOpening .exported (numberedModule package name count).fieldName) :=
    signatureFree_path hfield (by decide) (by decide) (by decide)
  rw [List.forall_mem_append, openingTexts_numberedModule]
  simp only [List.forall_mem_cons, List.not_mem_nil, false_implies, implies_true, and_true]
  refine ⟨⟨signatureFree_of_not_mem hheader, signatureFree_of_not_mem (by decide), hopening⟩, ?_⟩
  intro text htext
  rw [builderTexts_numberedModule] at htext
  split at htext
  · cases htext
  · obtain ⟨index, -, rfl⟩ := List.mem_map.mp htext
    rw [callText_numberedModule]
    have hname : IsPath ((numberedModule package name count).fieldName ++ toString index) :=
      hfield.append (isPath_toString index)
    exact signatureFree_path hname (by decide) (by decide) (by decide)

/-- The line on which a routine of the field is called. -/
def callLine (field : String) (index : Nat) : String :=
  "\t\t\t\t" ++ field ++ toString index ++ "()"

theorem hasCalls_builderTexts (capacity : Capacity)
    (hfield : IsPath (numberedModule package name count).fieldName) :
    HasCalls (numberedModule package name count).fieldName
      (String.join ((numberedModule package name count).builderTexts capacity))
      (if count = 0 then []
        else (List.range (count / capacity.rows + 1)).map
          (callLine (numberedModule package name count).fieldName)) := by
  rw [builderTexts_numberedModule]
  split
  · exact hasCalls_empty
  · apply HasCalls.join_map
    intro index _
    have hcall : (numberedModule package name count).callText index =
        "\n" ++ callLine (numberedModule package name count).fieldName index := by
      have hnewLine : Fragment.newLine = "\n" ++ "\t\t\t\t" := by decide
      unfold callLine
      rw [callText_numberedModule, hnewLine]
      simp only [String.append_assoc]
    have hstart : callLine (numberedModule package name count).fieldName index =
        callStart (numberedModule package name count).fieldName ++ (toString index ++ "()") := by
      unfold callLine callStart
      simp only [String.append_assoc]
    rw [hcall, hstart]
    refine hasCalls_of_isCall ?_ (isCall_callStart _)
    exact (IsLine.append (by decide) hfield.isLine).append
      ((isPath_toString index).isLine.append (by decide))

theorem hasCalls_routines (capacity : Capacity) (hpackage : package ≠ "") (hpath : IsPath package)
    (hname : IsPath name) :
    HasCalls (numberedModule package name count).fieldName
      (String.join ((numberedModule package name count).routinesTexts 0
        ((numberedModule package name count).routineBodies capacity))) [] := by
  have hfield : IsPath (numberedModule package name count).fieldName :=
    isPath_fieldName hpackage hpath hname
  refine hasCalls_routinesTexts (instanceType_numberedModule package name count) hfield.isLine ?_ 0
  rw [routineBodies_numberedModule hpackage]
  intro body hbody
  obtain ⟨position, -, rfl⟩ := List.mem_map.mp hbody
  apply HasCalls.join_silent
  intro text htext
  obtain ⟨index, -, rfl⟩ := List.mem_map.mp htext
  exact hasCalls_typeStatement hfield (underscore_mem_fieldName hpackage) hpath index

/-- No signature begins in the accessor, though it ends in the name of the field. -/
theorem avoids_accessor (hpackage : package ≠ "") (hpath : IsPath package) (hname : IsPath name)
    (count : Nat) :
    Avoids (signatureStart field).toList
      (Fragment.accessor .exported (numberedModule package name count).path
        (numberedModule package name count).fieldName).toList [] := by
  have hnamed : SignatureFree field
      ("\n" ++ Fragment.modifier .exported ++ "val " ++ (numberedModule package name count).path ++
        ".module : ") :=
    signatureFree_path (isPath_path hpackage hpath hname) (by decide) (by decide) (by decide)
  have htype : SignatureFree field Fragment.moduleType := signatureFree_of_not_mem (by decide)
  have hgetter : SignatureFree field " get() = " := signatureFree_of_not_mem (by decide)
  have hfront := (hnamed.append htype).append hgetter
  unfold Fragment.accessor
  rw [String.toList_append]
  exact (hfront.avoids _).append (avoids_path (isPath_fieldName hpackage hpath hname) (by simp))

theorem routineBodies_moduleText (hpackage : package ≠ "") (hpath : IsPath package)
    (hname : IsPath name) :
    Inspect.routineBodies (moduleText package name count capacity)
        (numberedModule package name count).fieldName =
      (List.range (routineCount capacity count)).map fun position =>
        String.join ((dueIndices capacity count position).map (typeStatement package)) := by
  unfold moduleText
  rw [Inspect.routineBodies_layout (instanceType_numberedModule package name count)
    (signatureFree_front hpackage hpath hname count capacity) ?_
    (avoids_accessor hpackage hpath hname count), routineBodies_numberedModule hpackage,
    List.map_map]
  · rfl
  · rw [routineBodies_numberedModule hpackage]
    intro body hbody
    obtain ⟨position, -, rfl⟩ := List.mem_map.mp hbody
    refine ⟨Clear.join ?_, Clear.join ?_⟩
    · intro text htext
      obtain ⟨index, -, rfl⟩ := List.mem_map.mp htext
      exact signatureFree_typeStatement hpath index
    · intro text htext
      obtain ⟨index, -, rfl⟩ := List.mem_map.mp htext
      exact closingFree_typeStatement hpath index

/-- The line of the accessor. -/
def accessorLine (module : Module) : String :=
  "public val " ++ module.path ++ ".module : " ++ Fragment.moduleType ++ " get() = " ++
    module.fieldName

theorem isLine_accessorLine (hpackage : package ≠ "") (hpath : IsPath package)
    (hname : IsPath name) : IsLine (accessorLine (numberedModule package name count)) := by
  have hmodulePath : IsLine (numberedModule package name count).path :=
    (isPath_path hpackage hpath hname).isLine
  have hfield : IsLine (numberedModule package name count).fieldName :=
    (isPath_fieldName hpackage hpath hname).isLine
  exact ((((IsLine.append (by decide) hmodulePath).append (by decide)).append (by decide)).append
    (by decide)).append hfield

theorem accessorLine_ne_empty (hpackage : package ≠ "") :
    accessorLine (numberedModule package name count) ≠ "" := by
  have hmem : '_' ∈ (accessorLine (numberedModule package name count)).toList := by
    unfold accessorLine
    rw [String.toList_append]
    exact List.mem_append_right _ (underscore_mem_fieldName hpackage)
  intro hempty
  rw [hempty] at hmem
  simp at hmem

/-- The text from line to line. -/
theorem moduleText_eq (package name : String) (count : Nat) (capacity : Capacity) :
    let module := numberedModule package name count
    moduleText package name count capacity =
      "package org.koin.ksp.generated" ++
        (onLines ["", "import org.koin.core.module.Module", "import org.koin.dsl.*", "", ""] ++
          ("\n" ++ ("public val " ++ module.fieldName ++ " : Module = module \x7b")) ++
          String.join (module.builderTexts capacity) ++ Fragment.blockClosing ++
          String.join (module.routinesTexts 0 (module.routineBodies capacity)) ++
          ("\n" ++ accessorLine module)) := by
  intro module
  have hheader : Fragment.moduleHeader "org.koin.ksp.generated" ++ "\n" =
      "package org.koin.ksp.generated" ++
        onLines ["", "import org.koin.core.module.Module", "import org.koin.dsl.*", "", ""] := by
    decide +kernel
  have hpublic : "\n" ++ Fragment.modifier .exported ++ "val " = "\n" ++ "public val " := by decide
  have hopening : Fragment.fieldOpening .exported module.fieldName =
      "\n" ++ ("public val " ++ module.fieldName ++ " : Module = module \x7b") := by
    unfold Fragment.fieldOpening
    rw [hpublic]
    simp only [String.append_assoc]
  have haccessor : Fragment.accessor .exported module.path module.fieldName =
      "\n" ++ accessorLine module := by
    unfold Fragment.accessor accessorLine
    rw [hpublic]
    simp only [String.append_assoc]
  have hlayout : moduleText package name count capacity =
      Fragment.moduleHeader "org.koin.ksp.generated" ++ "\n" ++
        Fragment.fieldOpening .exported module.fieldName ++
        String.join (module.builderTexts capacity) ++ Fragment.blockClosing ++
        String.join (module.routinesTexts 0 (module.routineBodies capacity)) ++
        Fragment.accessor .exported module.path module.fieldName := by
    unfold moduleText Module.layout
    dsimp only
    rw [openingTexts_numberedModule]
    simp only [String.join_append, String.join_cons, String.join_nil, String.append_empty,
      String.append_assoc]
    rfl
  rw [hlayout, hheader, hopening, haccessor]
  simp only [String.append_assoc]

theorem dispatcherCalls_moduleText (hpackage : package ≠ "") (hpath : IsPath package)
    (hname : IsPath name) :
    Inspect.dispatcherCalls (moduleText package name count capacity)
        (numberedModule package name count).fieldName =
      if count = 0 then []
      else (List.range (count / capacity.rows + 1)).map
        (callLine (numberedModule package name count).fieldName) := by
  let module := numberedModule package name count
  have hfield : IsPath module.fieldName := isPath_fieldName hpackage hpath hname
  have hpublic : ∀ rest : String, isCall module.fieldName ("public val " ++ rest) = false :=
    isCall_append_eq_false (by decide) (by decide)
  have hpackageLine : isCall module.fieldName ("package org.koin.ksp.generated" ++ "") = false :=
    isCall_append_eq_false (by decide) (by decide) ""
  rw [String.append_empty] at hpackageLine
  have hlast : isCall module.fieldName (accessorLine module) = false := by
    unfold accessorLine
    simp only [String.append_assoc]
    exact hpublic _
  have himports : HasCalls module.fieldName
      (onLines ["", "import org.koin.core.module.Module", "import org.koin.dsl.*", "", ""]) [] :=
    ⟨_, rfl, by decide +kernel, by simp [isCall, callStart]⟩
  have hopening : HasCalls module.fieldName
      ("\n" ++ ("public val " ++ module.fieldName ++ " : Module = module \x7b")) [] := by
    refine hasCalls_of_isCall_eq_false ?_ ?_
    · exact (IsLine.append (by decide) hfield.isLine).append (by decide)
    · rw [String.append_assoc]
      exact hpublic _
  have htext := (((himports.append hopening).append (hasCalls_builderTexts capacity hfield)).append
    hasCalls_blockClosing).append (hasCalls_routines capacity hpackage hpath hname)
  rw [List.nil_append, List.nil_append, List.append_nil, List.append_nil] at htext
  rw [moduleText_eq]
  exact dispatcherCalls_eq (by decide +kernel) hpackageLine htext
    (isLine_accessorLine hpackage hpath hname) (accessorLine_ne_empty hpackage) hlast

/-! ## Paths of segments -/

/-- The segment of a path: a text of letters, digits and underscores that is not empty. -/
structure IsSegment (segment : String) : Prop where
  ne_empty : segment ≠ ""
  isWordChar : ∀ c ∈ segment.toList, c.isAlphanum = true ∨ c = '_'

theorem IsSegment.of_all {segment : String} (hne : segment ≠ "")
    (h : segment.toList.all (fun c => c.isAlphanum || c = '_') = true) : IsSegment segment :=
  ⟨hne, by simpa using h⟩

theorem IsSegment.isPath {segment : String} (h : IsSegment segment) : IsPath segment := by
  intro c hc
  rcases h.isWordChar c hc with hletter | rfl
  · simp [isPathChar, hletter]
  · rfl

theorem IsSegment.dot_not_mem {segment : String} (h : IsSegment segment) :
    '.' ∉ segment.toList := by
  intro hmem
  exact absurd (h.isWordChar '.' hmem) (by decide)

theorem isPath_intercalate {segments : List String} (h : ∀ segment ∈ segments, IsSegment segment) :
    IsPath (".".intercalate segments) := by
  induction segments with
  | nil =>
      intro c hc
      simp at hc
  | cons segment segments ih =>
      obtain ⟨hhead, htail⟩ := List.forall_mem_cons.mp h
      by_cases hlast : segments = []
      · rw [hlast, String.intercalate_singleton]
        exact hhead.isPath
      · rw [String.intercalate_cons_of_ne_nil hlast]
        exact (hhead.isPath.append (isPath_of_all (by decide))).append (ih htail)

theorem intercalate_ne_empty {segments : List String} (h : ∀ segment ∈ segments, IsSegment segment)
    (hne : segments ≠ []) : ".".intercalate segments ≠ "" := by
  obtain ⟨segment, more, rfl⟩ := List.exists_cons_of_ne_nil hne
  have hsegment := (h segment List.mem_cons_self).ne_empty
  cases more with
  | nil => simpa using hsegment
  | cons next more => simp [hsegment]

/-- Let the path of a module have several segments of letters, digits and underscores. Then
inspection recovers from its text what was planned for any number of types: each routine up to
the last, which may not be full, registers just the types that are due, and the calls are found
line by line. -/
theorem inspection_recovers_plan (segments : List String) (hlength : 2 ≤ segments.length)
    (hsegments : ∀ segment ∈ segments, IsSegment segment) (count : Nat) (capacity : Capacity) :
    let module := moduleWithClasses (".".intercalate segments) count
    let field := module.fieldName
    let statement := typeStatement (".".intercalate segments.dropLast)
    ∃ text, (module.sourceUnit { capacity }).render = .ok text ∧
      Inspect.routineBodies text field =
        (List.range ((count + capacity.rows - 1) / capacity.rows)).map (fun position =>
          String.join ((List.range' (position * capacity.rows)
            (min ((position + 1) * capacity.rows) count - position * capacity.rows)).map
              statement)) ∧
      Inspect.dispatcherCalls text field =
        if count = 0 then []
        else (List.range (count / capacity.rows + 1)).map fun index =>
          "\t\t\t\t" ++ field ++ toString index ++ "()" := by
  intro module field statement
  have hne : segments ≠ [] := by
    rintro rfl
    simp at hlength
  have hfront : segments.dropLast ≠ [] := by
    intro hnil
    have hshort := congrArg List.length hnil
    rw [List.length_dropLast, List.length_nil] at hshort
    omega
  have hlast : IsSegment (segments.getLast hne) := hsegments _ (List.getLast_mem hne)
  have hothers : ∀ segment ∈ segments.dropLast, IsSegment segment := fun segment hmem =>
    hsegments segment (List.dropLast_subset _ hmem)
  have hpackage := intercalate_ne_empty hothers hfront
  have hpath := isPath_intercalate hothers
  have hjoined : ".".intercalate segments =
      ".".intercalate segments.dropLast ++ "." ++ segments.getLast hne := by
    conv_lhs => rw [← List.dropLast_concat_getLast hne]
    rw [String.intercalate_append_of_ne_nil hfront (by simp), String.intercalate_singleton]
  have hmodule : module = numberedModule (".".intercalate segments.dropLast)
      (segments.getLast hne) count := by
    rw [← moduleWithClasses_append _ hlast.dot_not_mem, ← hjoined]
  have hfield : field = (numberedModule (".".intercalate segments.dropLast)
      (segments.getLast hne) count).fieldName := congrArg Module.fieldName hmodule
  refine ⟨moduleText (".".intercalate segments.dropLast) (segments.getLast hne) count capacity,
    ?_, ?_, ?_⟩
  · rw [hmodule]
    exact render_numberedModule hpackage
  · rw [hfield]
    exact routineBodies_moduleText hpackage hpath hlast.isPath
  · rw [hfield]
    exact dispatcherCalls_moduleText hpackage hpath hlast.isPath

/-- Three types in routines of two, the last of which is not full. -/
theorem inspection_recovers_plan_of_three_types :
    let segments := ["com", "app", "Big"]
    let capacity : Capacity := ⟨2, by decide, by decide⟩
    2 ≤ segments.length ∧ (∀ segment ∈ segments, IsSegment segment) ∧
    ∃ text, ((moduleWithClasses "com.app.Big" 3).sourceUnit { capacity }).render = .ok text ∧
      Inspect.routineBodies text "com_app_Big" =
        ["\n\t\t\t\tsingle() \x7b com.app.C0() \x7d\n\t\t\t\tsingle() \x7b com.app.C1() \x7d",
          "\n\t\t\t\tsingle() \x7b com.app.C2() \x7d"] ∧
      Inspect.dispatcherCalls text "com_app_Big" =
        ["\t\t\t\tcom_app_Big0()", "\t\t\t\tcom_app_Big1()"] := by
  intro segments capacity
  have hsegments : ∀ segment ∈ segments, IsSegment segment := by
    simp only [segments, List.forall_mem_cons, List.not_mem_nil, false_implies, implies_true,
      and_true]
    exact ⟨.of_all (by decide) (by decide), .of_all (by decide) (by decide),
      .of_all (by decide) (by decide)⟩
  have hpath : ".".intercalate segments = "com.app.Big" := by decide +kernel
  have hfield : (moduleWithClasses "com.app.Big" 3).fieldName = "com_app_Big" := by decide +kernel
  obtain ⟨text, hrender, hbodies, hcalls⟩ :=
    inspection_recovers_plan segments (by decide) hsegments 3 capacity
  rw [hpath] at hrender
  rw [hpath, hfield] at hbodies hcalls
  refine ⟨by decide, hsegments, text, hrender, hbodies.trans ?_, hcalls.trans ?_⟩
  · decide +kernel
  · decide +kernel

end Fixture

end Wiring
