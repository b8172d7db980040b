import Wiring.Json.Value
import Wiring.Model

/-!
# Metadata as JSON values

Every member of a record is written, in a fixed order; what is left out in the
model is written as no value. The fields of the provider of a definition come
first and stand beside the definition's own.
-/

namespace Wiring

open Json (Value)

/-- A keyword as a value. -/
def Keyword.encode (keyword : Keyword) : Value :=
  .object [("keyword", .text keyword.name), ("import", .optionalText keyword.importPath)]

/-- A scope as a value. -/
def Scope.encode : Scope → Value
  | type name => .object [("type", .text name)]
  | named name => .object [("named", .text name)]

/-- The name of a visibility. -/
def Visibility.name : Visibility → String
  | exported => "public"
  | internal => "internal"
  | fileLocal => "private"

/-- A visibility as a value. -/
def Visibility.encode (visibility : Visibility) : Value := .text visibility.name

/-- A parameter as a value. -/
def Parameter.encode : Parameter → Value
  | dependency qualifier isNullable isLazy =>
      .object [("kind", .text "dependency"), ("qualifier", .optionalText qualifier),
        ("is_nullable", .flag isNullable), ("is_lazy", .flag isLazy)]
  | injected isNullable =>
      .object [("kind", .text "injected"), ("is_nullable", .flag isNullable)]
  | property key isNullable =>
      .object [("kind", .text "property"), ("key", .text key),
        ("is_nullable", .flag isNullable)]
  | all => .object [("kind", .text "list")]

/-- The members of a provider. -/
def Provider.members : Provider → List (String × Value)
  | type name => [("kind", .text "class"), ("class_name", .text name)]
  | function name isMember =>
      [("kind", .text "function"), ("function_name", .text name),
        ("is_class_function", .flag isMember)]

/-- A provider as a value. -/
def Provider.encode (provider : Provider) : Value := .object provider.members

/-- The members a definition has besides those of its provider. -/
def Definition.ownMembers (definition : Definition) : List (String × Value) :=
  [("package_name", .text definition.package),
    ("keyword", definition.keyword.encode),
    ("scope", (definition.scope.map Scope.encode).getD .null),
    ("qualifier", .optionalText definition.qualifier),
    ("is_created_at_start", .flag definition.isEager),
    ("bindings", .array (definition.bindings.map .text)),
    ("parameters", .array (definition.parameters.map Parameter.encode))]

/-- A definition as a value. -/
def Definition.encode (definition : Definition) : Value :=
  .object (definition.provider.members ++ definition.ownMembers)

/-- A module reference as a value. -/
def ModuleRef.encode (reference : ModuleRef) : Value :=
  .object [("package_name", .text reference.package), ("class_name", .text reference.name)]

/-- A module as a value. -/
def Module.encode (module : Module) : Value :=
  .object [("name", .text module.name),
    ("package_name", .text module.package),
    ("visibility", module.visibility.encode),
    ("definitions", .array (module.definitions.map Definition.encode)),
    ("includes", (module.includes.map fun refs => .array (refs.map ModuleRef.encode)).getD .null)]

/-- Metadata as a value. -/
def Metadata.encode (metadata : Metadata) : Value :=
  .object [("modules", .array (metadata.modules.map Module.encode)),
    ("default_modules", .array (metadata.defaultSources.map Module.encode))]

end Wiring
