/-!
# Definitions, modules and metadata

The values a generation run reads: definitions to be registered, the modules
that declare them, and the metadata that collects all modules of one run. The
names derived from them (paths, field names, file names) are defined here too.
-/

namespace Wiring

/-- Joins a package and a simple name; the empty package adds nothing. -/
def qualify (package name : String) : String :=
  if package.isEmpty then name else package ++ "." ++ name

/-- A registration keyword and the import that makes it available. -/
structure Keyword where
  /-- The function of the registration language. -/
  name : String
  /-- The path to import, if the keyword needs one. -/
  importPath : Option String := none
deriving DecidableEq, Repr, Inhabited

/-- The scope a definition is registered under. -/
inductive Scope where
  /-- A scope keyed by a type. -/
  | type (name : String)
  /-- A scope keyed by a string. -/
  | named (name : String)
deriving DecidableEq, Repr, Inhabited

/-- Who may see the generated field and accessor of a module. -/
inductive Visibility where
  /-- Visible everywhere. -/
  | exported
  /-- Visible inside the compilation module. -/
  | internal
  /-- Visible inside the generated file. -/
  | fileLocal
deriving DecidableEq, Repr, Inhabited

/-- How one argument of a constructor or function is found. -/
inductive Parameter where
  /-- Looked up in the container, perhaps by qualifier, perhaps later. -/
  | dependency (qualifier : Option String) (isNullable isLazy : Bool)
  /-- Handed over by the caller. -/
  | injected (isNullable : Bool)
  /-- Read from the property store. -/
  | property (key : String) (isNullable : Bool)
  /-- Every definition bound to the type of the parameter. -/
  | all
deriving DecidableEq, Repr, Inhabited

/-- What is called to make an instance. -/
inductive Provider where
  /-- The constructor of a type. -/
  | type (name : String)
  /-- A function, which may be a member of the module that declares it. -/
  | function (name : String) (isMember : Bool)
deriving DecidableEq, Repr, Inhabited

/-- One thing to register. -/
structure Definition where
  /-- What makes the instance. -/
  provider : Provider
  /-- The package that declares the provider. -/
  package : String := ""
  /-- The keyword that registers the definition. -/
  keyword : Keyword
  /-- The scope it lives in; without one it belongs to the module itself. -/
  scope : Option Scope := none
  /-- A string that tells it from other definitions of its type. -/
  qualifier : Option String := none
  /-- Whether the container makes the instance at once. -/
  isEager : Bool := false
  /-- Further types it is bound to. -/
  bindings : List String := []
  /-- The arguments in call order. -/
  parameters : List Parameter := []
deriving DecidableEq, Repr, Inhabited

/-- A reference to a module whose registrations are taken in. -/
structure ModuleRef where
  /-- The package of the module. -/
  package : String := ""
  /-- The simple name of the module. -/
  name : String
deriving DecidableEq, Repr, Inhabited

/-- A named group of definitions. -/
structure Module where
  /-- The simple name of the module. -/
  name : String
  /-- The package that declares the module. -/
  package : String := ""
  /-- Who may see what is generated for it. -/
  visibility : Visibility := .exported
  /-- The definitions in the order of their declaration. -/
  definitions : List Definition := []
  /-- The modules it takes in, if it says so at all. -/
  includes : Option (List ModuleRef) := none
deriving DecidableEq, Repr, Inhabited

/-- All that one generation run is about. -/
structure Metadata where
  /-- The declared modules, each of which gets a unit of its own. -/
  modules : List Module := []
  /-- The sources whose definitions share the default module. -/
  defaultSources : List Module := []
deriving DecidableEq, Repr, Inhabited

namespace Keyword

/-- The keyword together with the import it needs. -/
def importedFrom (keyword : Keyword) (path : String) : Keyword :=
  { keyword with importPath := some path }

end Keyword

namespace Provider

/-- The simple name of the type or function. -/
def name : Provider → String
  | type name => name
  | function name _ => name

/-- Whether the provider is called through an instance of its module. -/
def isMember : Provider → Bool
  | type _ => false
  | function _ isMember => isMember

/-- The same function as a member of its module; a type stays as it is. -/
def asMember : Provider → Provider
  | type name => type name
  | function name _ => function name true

end Provider

namespace Parameter

/-- A lookup without a qualifier that must succeed at once. -/
def plain : Parameter := dependency none false false

/-- Whether the caller hands the argument over. -/
def isInjected : Parameter → Bool
  | injected _ => true
  | _ => false

end Parameter

namespace Definition

/-- An unscoped definition of a type. -/
def ofType (package name : String) (keyword : Keyword) : Definition :=
  { provider := .type name, package, keyword }

/-- An unscoped definition of a top-level function. -/
def ofFunction (package name : String) (keyword : Keyword) : Definition :=
  { provider := .function name false, package, keyword }

/-- The definition moved into `scope`. -/
def inScope (definition : Definition) (scope : Scope) : Definition :=
  { definition with scope := some scope }

/-- The definition with its function made a member of the module. -/
def memberOfModule (definition : Definition) : Definition :=
  { definition with provider := definition.provider.asMember }

/-- The definition under a qualifier. -/
def qualified (definition : Definition) (qualifier : String) : Definition :=
  { definition with qualifier := some qualifier }

/-- The definition made at once by the container. -/
def eager (definition : Definition) : Definition :=
  { definition with isEager := true }

/-- The definition bound to one more type. -/
def boundTo (definition : Definition) (type : String) : Definition :=
  { definition with bindings := definition.bindings ++ [type] }

/-- The definition with one more argument. -/
def withParameter (definition : Definition) (parameter : Parameter) : Definition :=
  { definition with parameters := definition.parameters ++ [parameter] }

/-- The simple name of what is registered. -/
def name (definition : Definition) : String := definition.provider.name

/-- The qualified name that messages use. -/
def label (definition : Definition) : String := qualify definition.package definition.name

/-- Whether the definition lives in a scope. -/
def isScoped (definition : Definition) : Bool := definition.scope.isSome

/-- Whether the definition is called through the module instance. -/
def isMember (definition : Definition) : Bool := definition.provider.isMember

end Definition

namespace Module

/-- An empty module that is visible everywhere. -/
def named (package name : String) : Module := { name, package }

/-- The module under another visibility. -/
def withVisibility (module : Module) (visibility : Visibility) : Module :=
  { module with visibility }

/-- The module with one more definition. -/
def withDefinition (module : Module) (definition : Definition) : Module :=
  { module with definitions := module.definitions ++ [definition] }

/-- The module taking in one more module. -/
def including (module : Module) (reference : ModuleRef) : Module :=
  { module with includes := some (module.includes.getD [] ++ [reference]) }

/-- The qualified name of the module. -/
def path (module : Module) : String := qualify module.package module.name

/-- The name of the generated field: the path with an underscore for every
separator of the package. -/
def fieldName (module : Module) : String :=
  if module.package.isEmpty then module.name
  else String.ofList (module.package.toList.map fun c => if c = '.' then '_' else c) ++
    "_" ++ module.name

/-- The name of the file that holds the unit of the module. -/
def fileName (module : Module) : String := module.fieldName ++ "Gen.kt"

/-- Whether some definition is called through the module instance. -/
def hasMembers (module : Module) : Bool := module.definitions.any Definition.isMember

end Module

end Wiring
