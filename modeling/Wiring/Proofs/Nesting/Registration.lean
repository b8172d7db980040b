import Wiring.Proofs.Nesting.Scanner
import Wiring.Proofs.Registration

/-!
# Registrations close what they open

Qualifiers, property keys and named scopes are written as literals, everything else is
copied. As long as what is copied is plain, the statement of a definition and the block
of a scope close what they open, and their literals are those of the strings they quote.
-/

namespace Wiring

/-! ## What is copied and what is quoted -/

/-- The strings that the argument quotes. -/
def Parameter.quotedTexts : Parameter → List String
  | dependency qualifier _ _ => qualifier.toList
  | property key _ => [key]
  | injected _ | all => []

/-- The strings that the opening of the scope copies. -/
def Scope.copiedTexts : Scope → List String
  | type name => [name]
  | named _ => []

/-- The strings that the opening of the scope quotes. -/
def Scope.quotedTexts : Scope → List String
  | type _ => []
  | named name => [name]

namespace Definition

/-- The strings that a unit copies from the definition. -/
def copiedTexts (definition : Definition) : List String :=
  [definition.name, definition.package, definition.keyword.name] ++
    definition.keyword.importPath.toList ++ definition.bindings ++
    definition.scope.toList.flatMap Scope.copiedTexts

/-- The strings that the statement quotes. -/
def quotedTexts (definition : Definition) : List String :=
  definition.qualifier.toList ++ definition.parameters.flatMap Parameter.quotedTexts

end Definition

namespace EmissionUnit

/-- The strings that the registration of the unit copies. -/
def copiedTexts : EmissionUnit → List String
  | single definition => definition.copiedTexts
  | group block => block.scope.copiedTexts ++ block.members.flatMap Definition.copiedTexts

/-- The strings that the registration of the unit quotes. -/
def quotedTexts : EmissionUnit → List String
  | single definition => definition.quotedTexts
  | group block => block.scope.quotedTexts ++ block.members.flatMap Definition.quotedTexts

end EmissionUnit

namespace Origin

/-- The strings that the source unit copies. -/
def copiedTexts (settings : Settings) (origin : Origin) : List String :=
  settings.generatedPackage :: origin.definitions.flatMap Definition.copiedTexts ++
    match origin with
    | declared module => [module.name, module.package] ++
        (module.includes.getD []).flatMap fun reference => [reference.name, reference.package]
    | pooled _ => []

/-- The strings that the source unit quotes, in the order of their registration. -/
def quotedTexts (origin : Origin) : List String :=
  (Grouping.ofDefinitions origin.definitions).units.flatMap EmissionUnit.quotedTexts

end Origin

theorem IsPlainText.qualify {package name : String} (hpackage : IsPlainText package)
    (hname : IsPlainText name) : IsPlainText (qualify package name) := by
  unfold Wiring.qualify
  split
  · exact hname
  · exact (hpackage.append (by decide)).append hname

/-! ## Arguments and options -/

section Registrations

variable {due : List Char}

theorem takes_qualifierArgument (qualifier : String) :
    Takes due (qualifierArgument qualifier) due [Text.literal qualifier] := by
  have hopening : Takes [] ("qualifier=" ++ Fragment.qualifierType ++ "(") [')'] [] := by decide
  exact ((hopening.append (takes_literal qualifier)).append_silent Takes.closing).anywhere

theorem takes_argument (parameter : Parameter) :
    Takes due parameter.argument due (parameter.quotedTexts.map Text.literal) := by
  cases parameter with
  | dependency qualifier isNullable isLazy =>
      have hqualifier : Takes [')'] ((qualifier.map qualifierArgument).getD "") [')']
          (qualifier.toList.map Text.literal) := by
        cases qualifier with
        | none => exact Takes.empty
        | some qualifier => exact takes_qualifierArgument qualifier
      have hcall : ∀ {lookup : String}, Takes [] (lookup ++ "(") [')'] [] →
          Takes due (lookup ++ "(" ++ (qualifier.map qualifierArgument).getD "" ++ ")") due
            (qualifier.toList.map Text.literal) :=
        fun hopening => ((hopening.append hqualifier).append_silent Takes.closing).anywhere
      cases isLazy <;> cases isNullable <;> exact hcall (by decide)
  | injected isNullable => cases isNullable <;> exact Takes.anywhere (by decide)
  | property key isNullable =>
      have hopening : Takes [] ((if isNullable then "getPropertyOrNull" else "getProperty") ++ "(")
          [')'] [] := by
        cases isNullable <;> decide
      exact ((hopening.append (takes_literal key)).append_silent Takes.closing).anywhere
  | all => exact Takes.anywhere (by decide)

namespace Definition

variable {definition : Definition} {place : Place} {text : String}

theorem takes_options (definition : Definition) :
    Takes due definition.options due (definition.qualifier.toList.map Text.literal) := by
  have hflag : Takes due "createdAtStart=true" due [] := Takes.anywhere (by decide)
  have hcomma : Takes due "," due [] := Takes.anywhere (by decide)
  unfold options
  cases definition.qualifier with
  | none =>
      cases definition.isEager with
      | false => exact Takes.empty
      | true => simpa using hflag
  | some qualifier =>
      have hqualifier : Takes due (qualifierArgument qualifier) due [Text.literal qualifier] :=
        takes_qualifierArgument qualifier
      cases definition.isEager with
      | false => simpa using hqualifier
      | true =>
          simpa [String.intercalate_cons_of_ne_nil] using
            (hqualifier.append_silent hcomma).append_silent hflag

theorem takes_arguments (definition : Definition) :
    Takes due definition.arguments due
      ((definition.parameters.flatMap Parameter.quotedTexts).map Text.literal) := by
  rw [List.map_flatMap]
  apply Takes.intercalate (Takes.anywhere (by decide))
  intro parameter _
  exact takes_argument parameter

theorem takes_bindingText (hbindings : ∀ type ∈ definition.bindings, IsPlainText type) :
    Takes due definition.bindingText due [] := by
  unfold bindingText
  split
  · exact Takes.empty
  next type htypes =>
    have htype : IsPlainText type := by simpa [htypes] using hbindings
    have hopening : Takes [] " bind(" [')'] [] := by decide
    have hclosing : Takes [')'] "::class)" [] [] := by decide
    exact ((hopening.append_silent htype.takes).append_silent hclosing).anywhere
  next types _ _ =>
    have hlist : Takes [')', ')'] (",".intercalate (definition.bindings.map (· ++ "::class")))
        [')', ')'] [] := by
      apply Takes.intercalate_silent (by decide)
      intro text htext
      obtain ⟨type, hmem, rfl⟩ := List.mem_map.mp htext
      exact ((hbindings type hmem).append (by decide)).takes
    have hopening : Takes [] " binds(arrayOf(" [')', ')'] [] := by decide
    have hclosing : Takes [')', ')'] "))" [] [] := by decide
    exact ((hopening.append_silent hlist).append_silent hclosing).anywhere

theorem isPlainText_target (hname : IsPlainText definition.name)
    (hpackage : IsPlainText definition.package)
    (hplace : ∀ instanceName, place = .routine instanceName → IsPlainText instanceName)
    (htarget : definition.provider.target definition.package place = .ok text) :
    IsPlainText text := by
  unfold name at hname
  unfold Provider.target at htarget
  split at htarget
  next heq =>
    rw [heq] at hname
    cases htarget
    exact hpackage.qualify hname
  next heq =>
    rw [heq] at hname
    cases htarget
    exact hpackage.qualify hname
  next heq =>
    rw [heq] at hname
    cases htarget
    exact ((hplace _ rfl).append (by decide)).append hname
  next => cases htarget

/-- A statement closes what it opens, and its literals are those of the strings that
the definition quotes. -/
theorem takes_statement
    (hcopied : ∀ text ∈ definition.copiedTexts, IsPlainText text)
    (hplace : ∀ instanceName, place = .routine instanceName → IsPlainText instanceName)
    (htext : definition.statement? place = some text) :
    Takes due text due (definition.quotedTexts.map Text.literal) := by
  simp only [copiedTexts, List.forall_mem_append, List.forall_mem_cons] at hcopied
  obtain ⟨⟨⟨⟨hname, hpackage, hkeyword, _⟩, _⟩, hbindings⟩, _⟩ := hcopied
  obtain ⟨target, htarget, rfl⟩ := exists_target_of_statement? htext
  have hplain := isPlainText_target hname hpackage hplace htarget
  have hreceiver : Takes ['\x7d'] definition.receiver ['\x7d'] [] := by
    unfold receiver
    split <;> decide
  -- the options stand in parentheses, the call in braces and its arguments in
  -- parentheses again
  have hoptions : Takes [] (Fragment.newLine ++ definition.keyword.name ++ "(" ++
      definition.options) [')'] (definition.qualifier.toList.map Text.literal) :=
    ((IsPlainText.append (by decide) hkeyword).takes.append_silent Takes.opening).append
      (takes_options definition)
  have hblock : Takes [')'] ") \x7b " ['\x7d'] [] := by decide
  have hcall := (((hoptions.append_silent hblock).append_silent hreceiver).append_silent
    hplain.takes).append_silent (show Takes ['\x7d'] "(" [')', '\x7d'] [] by decide)
  have hclosed := (hcall.append (takes_arguments definition)).append_silent
    (show Takes [')', '\x7d'] ") \x7d" [] [] by decide)
  rw [quotedTexts, List.map_append]
  exact (hclosed.append_silent (takes_bindingText hbindings)).anywhere

end Definition

theorem Scope.takes_opening {scope : Scope}
    (hcopied : ∀ text ∈ scope.copiedTexts, IsPlainText text) :
    Takes [] scope.opening ['\x7d'] (scope.quotedTexts.map Text.literal) := by
  cases scope with
  | type name =>
      have hname : IsPlainText name := by simpa [copiedTexts] using hcopied
      have hopening : Takes [] "> \x7b" ['\x7d'] [] := by decide
      exact (IsPlainText.append (by decide) hname).takes.append_silent hopening
  | named name =>
      have hopening : Takes [] (Fragment.newLine ++ "scope(" ++ Fragment.namedFunction ++ "(")
          [')', ')'] [] := by decide
      have hblock : Takes [')', ')'] ")) \x7b" ['\x7d'] [] := by decide
      exact (hopening.append (takes_literal name)).append_silent hblock

/-! ## Registrations -/

variable {place : Place}

theorem takes_statements {definitions : List Definition}
    (hcopied : ∀ text ∈ definitions.flatMap Definition.copiedTexts, IsPlainText text)
    (hplace : ∀ instanceName, place = .routine instanceName → IsPlainText instanceName)
    (hstated : AllStated place definitions) :
    Takes due (String.join (definitions.filterMap (Definition.statement? place))) due
      ((definitions.flatMap Definition.quotedTexts).map Text.literal) := by
  rw [List.filterMap_eq_flatMap_toList, List.map_flatMap]
  apply Takes.join
  intro definition hmem
  obtain ⟨text, htext⟩ := Option.isSome_iff_exists.mp (hstated definition hmem)
  rw [htext]
  simpa using Definition.takes_statement (List.forall_mem_flatMap.mp hcopied definition hmem)
    hplace htext

/-- The texts of a unit close what they open: a statement, or the block of a scope. -/
theorem EmissionUnit.takes_texts {unit : EmissionUnit}
    (hcopied : ∀ text ∈ unit.copiedTexts, IsPlainText text)
    (hplace : ∀ instanceName, place = .routine instanceName → IsPlainText instanceName)
    (hstated : AllStated place unit.definitions) :
    Takes due (String.join (unit.texts place)) due (unit.quotedTexts.map Text.literal) := by
  cases unit with
  | single definition =>
      have hsingle : ∀ text ∈ [definition].flatMap Definition.copiedTexts, IsPlainText text := by
        simpa [copiedTexts] using hcopied
      have hone : [definition].filterMap (Definition.statement? place) =
          (definition.statement? place).toList := by
        rw [List.filterMap_eq_flatMap_toList, List.flatMap_singleton]
      have htexts : Takes due _ due _ := takes_statements hsingle hplace hstated
      rwa [hone, List.flatMap_singleton] at htexts
  | group block =>
      obtain ⟨hscope, hmembers⟩ := List.forall_mem_append.mp hcopied
      have hinside := (Scope.takes_opening hscope).append (takes_statements hmembers hplace hstated)
      have hclosing : Takes ['\x7d'] Fragment.scopeClosing [] [] := by decide
      simpa [texts, quotedTexts, String.append_assoc] using
        (hinside.append_silent hclosing).anywhere

/-- What the units of definitions copy is what the definitions themselves do. -/
theorem Grouping.forall_mem_copiedTexts_units {definitions : List Definition} {p : String → Prop}
    (hcopied : ∀ text ∈ definitions.flatMap Definition.copiedTexts, p text) :
    ∀ unit ∈ (ofDefinitions definitions).units, ∀ text ∈ unit.copiedTexts, p text := by
  have hdefinition : ∀ definition ∈ definitions, ∀ text ∈ definition.copiedTexts, p text :=
    List.forall_mem_flatMap.mp hcopied
  rw [units_ofDefinitions, List.forall_mem_append, List.forall_mem_map, List.forall_mem_map]
  constructor
  · intro definition hmem
    exact hdefinition definition (mem_definitionsIn.mp hmem).1
  · intro scope hscope
    obtain ⟨definition, hmem, heq⟩ := mem_distinctScopes.mp hscope
    refine List.forall_mem_append.mpr ⟨?_, List.forall_mem_flatMap.mpr ?_⟩
    · -- a scope is copied from any definition that carries it
      intro text htext
      apply hdefinition definition hmem
      simp [Definition.copiedTexts, heq, htext]
    · intro member hmember
      exact hdefinition member (mem_definitionsIn.mp hmember).1

theorem takes_units {definitions : List Definition} {units : List EmissionUnit}
    (hcopied : ∀ text ∈ definitions.flatMap Definition.copiedTexts, IsPlainText text)
    (hplace : ∀ instanceName, place = .routine instanceName → IsPlainText instanceName)
    (hstated : AllStated place definitions)
    (hunits : units ⊆ (Grouping.ofDefinitions definitions).units) :
    Takes due (String.join (units.flatMap (EmissionUnit.texts place))) due
      ((units.flatMap EmissionUnit.quotedTexts).map Text.literal) := by
  rw [List.map_flatMap]
  apply Takes.join
  intro unit hmem
  exact EmissionUnit.takes_texts
    (Grouping.forall_mem_copiedTexts_units hcopied unit (hunits hmem)) hplace
    (Grouping.forall_mem_units_iff.mpr hstated unit (hunits hmem))

end Registrations

end Wiring
