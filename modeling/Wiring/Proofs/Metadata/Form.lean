import Wiring.Metadata.Encode
import Wiring.Proofs.Json.Arrangement

/-!
# Forms of metadata

The values that metadata may be written as. In each record the members come in any
order, those that hold their default may be left out, and members of other names may be
added; a variant is still written as one name or one member.
-/

namespace Wiring

open Json

/-! ## Slots of the records -/

/-- The members of a keyword. -/
def Keyword.slots (keyword : Keyword) : List Slot :=
  [.must "keyword" (· = .text keyword.name),
    .may "import" (· = .optionalText keyword.importPath) (keyword.importPath = none)]

/-- The values that a keyword may be written as. -/
def Keyword.IsForm (keyword : Keyword) : Value → Prop := IsRecord keyword.slots

/-- The members of a parameter. -/
def Parameter.slots : Parameter → List Slot
  | dependency qualifier isNullable isLazy =>
      [.must "kind" (· = .text "dependency"),
        .may "qualifier" (· = .optionalText qualifier) (qualifier = none),
        .may "is_nullable" (· = .flag isNullable) (isNullable = false),
        .may "is_lazy" (· = .flag isLazy) (isLazy = false)]
  | injected isNullable =>
      [.must "kind" (· = .text "injected"),
        .may "is_nullable" (· = .flag isNullable) (isNullable = false)]
  | property key isNullable =>
      [.must "kind" (· = .text "property"),
        .must "key" (· = .text key),
        .may "is_nullable" (· = .flag isNullable) (isNullable = false)]
  | all => [.must "kind" (· = .text "list")]

/-- The values that a parameter may be written as. -/
def Parameter.IsForm (parameter : Parameter) : Value → Prop := IsRecord parameter.slots

/-- The members of a provider. -/
def Provider.slots : Provider → List Slot
  | type name =>
      [.must "kind" (· = .text "class"), .must "class_name" (· = .text name)]
  | function name isMember =>
      [.must "kind" (· = .text "function"), .must "function_name" (· = .text name),
        .may "is_class_function" (· = .flag isMember) (isMember = false)]

/-- The members that a definition has besides those of its provider. -/
def Definition.ownSlots (definition : Definition) : List Slot :=
  [.may "package_name" (· = .text definition.package) (definition.package = ""),
    .must "keyword" definition.keyword.IsForm,
    .may "scope" (· = (definition.scope.map Scope.encode).getD .null) (definition.scope = none),
    .may "qualifier" (· = .optionalText definition.qualifier) (definition.qualifier = none),
    .may "is_created_at_start" (· = .flag definition.isEager) (definition.isEager = false),
    .may "bindings" (· = .array (definition.bindings.map .text)) (definition.bindings = []),
    .may "parameters" (IsListOf Parameter.IsForm definition.parameters)
      (definition.parameters = [])]

/-- The members of a definition. -/
def Definition.slots (definition : Definition) : List Slot :=
  definition.provider.slots ++ definition.ownSlots

/-- The values that a definition may be written as. -/
def Definition.IsForm (definition : Definition) : Value → Prop := IsRecord definition.slots

/-- The members of a module reference. -/
def ModuleRef.slots (reference : ModuleRef) : List Slot :=
  [.may "package_name" (· = .text reference.package) (reference.package = ""),
    .must "class_name" (· = .text reference.name)]

/-- The values that a module reference may be written as. -/
def ModuleRef.IsForm (reference : ModuleRef) : Value → Prop := IsRecord reference.slots

/-- The values that the modules taken in may be written as. -/
def Module.IsIncludesForm : Option (List ModuleRef) → Value → Prop
  | none, value => value = .null
  | some references, value => IsListOf ModuleRef.IsForm references value

/-- The members of a module. -/
def Module.slots (module : Module) : List Slot :=
  [.must "name" (· = .text module.name),
    .may "package_name" (· = .text module.package) (module.package = ""),
    .may "visibility" (· = module.visibility.encode) (module.visibility = .exported),
    .may "definitions" (IsListOf Definition.IsForm module.definitions) (module.definitions = []),
    .may "includes" (IsIncludesForm module.includes) (module.includes = none)]

/-- The values that a module may be written as. -/
def Module.IsForm (module : Module) : Value → Prop := IsRecord module.slots

/-- The members of metadata. -/
def Metadata.slots (metadata : Metadata) : List Slot :=
  [.may "modules" (IsListOf Module.IsForm metadata.modules) (metadata.modules = []),
    .may "default_modules" (IsListOf Module.IsForm metadata.defaultSources)
      (metadata.defaultSources = [])]

/-- The values that metadata may be written as. -/
def Metadata.IsForm (metadata : Metadata) : Value → Prop := IsRecord metadata.slots

end Wiring
