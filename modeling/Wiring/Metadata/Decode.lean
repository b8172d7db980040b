import Wiring.Disk.Walk
import Wiring.Failure
import Wiring.Json.Union
import Wiring.Model

/-!
# Reading metadata

A record is read from an object, whose members may come in any order and may be
left out where they have a default, or from an array of its fields in order. A
definition is read from an object only: the members that are not its own are
kept until the object ends, and the provider is read from them.

The metadata of a run is read from a file, which is looked up in the directory that its
path names. Where that directory is missing, it is the one that is reported.
-/

namespace Wiring

open Json

/-! ## Keywords -/

/-- A member of a keyword. -/
inductive Keyword.Member where
  | name (value : String)
  | importPath (value : Option String)

namespace Keyword

/-- The name that a member gives. -/
def Member.name? : Member → Option String
  | .name value => some value
  | _ => none

/-- The import path that a member gives. -/
def Member.importPath? : Member → Option (Option String)
  | .importPath value => some value
  | _ => none

/-- Reads one member. -/
def readMember (name : String) (node : Node) : Except Refusal (Option Member) :=
  match name with
  | "keyword" => (readText .text node).map (some ∘ .name)
  | "import" => (readOptional (readText .text) node).map (some ∘ .importPath)
  | _ => node.skip.map fun _ => none

/-- The keyword that members describe. -/
def ofMembers (found : List Member) : Except Refusal Keyword := do
  let name ← required "keyword" Member.name? found
  pure { name, importPath := optional none Member.importPath? found }

/-- Reads a keyword. -/
def decode : Node → Except Refusal Keyword
  | .object _ members tail =>
      readRecord ["keyword", "import"] readMember ofMembers members tail
  | .array _ items tail => do
      let expected := Expected.recordOf "Keyword" 2
      let (name, rest) ← (Elements.ofArray items tail).nextOf 0 expected (readText .text)
      let (importPath, rest) ← rest.nextD none (readOptional (readText .text))
      rest.close
      pure { name, importPath }
  | node => node.mismatch (.record "Keyword")

end Keyword

/-! ## Scopes and visibilities -/

/-- Reads a scope; its variants always carry a name. -/
def Scope.decode : Node → Except Refusal Scope :=
  readUnion [("type", Scope.type), ("named", Scope.named)]
    (fun _ => refuse (.unexpectedType .bareVariant .variantWithValue))
    (fun scope node => (readText .text node).map scope)

/-- Reads a visibility; its variants carry nothing. -/
def Visibility.decode : Node → Except Refusal Visibility :=
  readUnion [("public", Visibility.exported), ("internal", .internal), ("private", .fileLocal)]
    .ok
    (fun visibility node => (readUnit node).map fun _ => visibility)

/-! ## Parameters -/

/-- A field of some variant of parameters. -/
inductive Parameter.Member where
  | qualifier (value : Option String)
  /-- Whether the argument may be absent. -/
  | isNullable (value : Bool)
  /-- Whether the lookup is put off. -/
  | isLazy (value : Bool)
  /-- The property key. -/
  | key (value : String)

/-- The variants of parameters. -/
inductive Parameter.Variant where
  /-- Looked up in the container. -/
  | dependency
  /-- Handed over by the caller. -/
  | injected
  /-- Read from the property store. -/
  | property
  /-- Every definition of the type. -/
  | all
deriving DecidableEq, Repr

namespace Parameter

/-- The qualifier that a member gives. -/
def Member.qualifier? : Member → Option (Option String)
  | .qualifier value => some value
  | _ => none

/-- Whether a member allows the argument to be absent. -/
def Member.isNullable? : Member → Option Bool
  | .isNullable value => some value
  | _ => none

/-- Whether a member puts the lookup off. -/
def Member.isLazy? : Member → Option Bool
  | .isLazy value => some value
  | _ => none

/-- The property key that a member gives. -/
def Member.key? : Member → Option String
  | .key value => some value
  | _ => none

/-- The names of the fields of a variant. -/
def Variant.fields : Variant → List String
  | dependency => ["qualifier", "is_nullable", "is_lazy"]
  | injected => ["is_nullable"]
  | property => ["key", "is_nullable"]
  | all => []

/-- Reads one field of a variant; a field of another variant is passed over. -/
def Variant.readField (variant : Variant) (name : String) (value : Value) :
    Except Refusal (Option Member) :=
  if name ∈ variant.fields then
    match name with
    | "qualifier" => (value.asOptional Value.asText).map (some ∘ .qualifier)
    | "is_nullable" => value.asFlag.map (some ∘ .isNullable)
    | "is_lazy" => value.asFlag.map (some ∘ .isLazy)
    | "key" => value.asText.map (some ∘ .key)
    | _ => .ok none
  else .ok none

/-- Reads a parameter of a known variant from its members. -/
def ofMembers (variant : Variant) (members : List (String × Value)) :
    Except Refusal Parameter := do
  let found ← Value.readFields variant.fields variant.readField members
  let isNullable := optional false Member.isNullable? found
  match variant with
  | .dependency =>
      pure (.dependency (optional none Member.qualifier? found) isNullable
        (optional false Member.isLazy? found))
  | .injected => pure (.injected isNullable)
  | .property => pure (.property (← required "key" Member.key? found) isNullable)
  | .all => pure .all

/-- Reads a kept truth value that may be left out. -/
def flagAt (values : List Value) (position : Nat) : Except Refusal Bool :=
  match values[position]? with
  | some value => value.asFlag
  | none => .ok false

/-- Reads a parameter of a known variant from its fields in order. -/
def ofElements (variant : Variant) (values : List Value) : Except Refusal Parameter := do
  let parameter ←
    match variant with
    | .dependency => do
        let qualifier ←
          match values[0]? with
          | some value => value.asOptional Value.asText
          | none => pure none
        pure (.dependency qualifier (← flagAt values 1) (← flagAt values 2))
    | .injected => do pure (.injected (← flagAt values 0))
    | .property => do
        let key ←
          match values[0]? with
          | some value => value.asText
          | none => refuse (.wrongLength 0 (.fieldsOf "Parameter" "Property" 2))
        pure (.property key (← flagAt values 1))
    | .all => pure .all
  Value.noMoreThan variant.fields.length values
  pure parameter

/-- How parameters are read. -/
def variants : Variants Variant Parameter :=
  { name := "Parameter"
    variants := [("dependency", .dependency), ("injected", .injected),
      ("property", .property), ("list", .all)]
    ofMembers
    ofElements }

/-- Reads a parameter inside which `room` arrays and objects may be opened. -/
def decode (room : Nat) : Node → Except Refusal Parameter := variants.read room

end Parameter

/-! ## Providers -/

/-- A field of some variant of providers. -/
inductive Provider.Member where
  /-- The name of the type or function. -/
  | name (value : String)
  /-- Whether the function is a member of its module. -/
  | isMember (value : Bool)

/-- The variants of providers. -/
inductive Provider.Variant where
  | type
  | function
deriving DecidableEq, Repr

namespace Provider

/-- The name that a member gives. -/
def Member.name? : Member → Option String
  | .name value => some value
  | _ => none

/-- Whether a member says that the function belongs to its module. -/
def Member.isMember? : Member → Option Bool
  | .isMember value => some value
  | _ => none

/-- The name of the field that holds the name. -/
def Variant.nameField : Variant → String
  | type => "class_name"
  | function => "function_name"

/-- The names of the fields of a variant. -/
def Variant.fields : Variant → List String
  | type => ["class_name"]
  | function => ["function_name", "is_class_function"]

/-- Reads one field of a variant; a field of another variant is passed over. -/
def Variant.readField (variant : Variant) (name : String) (value : Value) :
    Except Refusal (Option Member) :=
  if name ∈ variant.fields then
    if name = variant.nameField then value.asText.map (some ∘ .name)
    else value.asFlag.map (some ∘ .isMember)
  else .ok none

/-- The provider of a variant. -/
def Variant.provider (variant : Variant) (name : String) (isMember : Bool) : Provider :=
  match variant with
  | type => .type name
  | function => .function name isMember

/-- Reads a provider of a known variant from its members. -/
def ofMembers (variant : Variant) (members : List (String × Value)) :
    Except Refusal Provider := do
  let found ← Value.readFields variant.fields variant.readField members
  let name ← required variant.nameField Member.name? found
  pure (variant.provider name (optional false Member.isMember? found))

/-- The name of a variant in messages. -/
def Variant.label : Variant → String
  | type => "Class"
  | function => "Function"

/-- Reads a provider of a known variant from its fields in order. -/
def ofElements (variant : Variant) (values : List Value) : Except Refusal Provider := do
  let count := variant.fields.length
  let name ←
    match values[0]? with
    | some value => value.asText
    | none => refuse (.wrongLength 0 (.fieldsOf "DefinitionKind" variant.label count))
  let isMember ←
    match variant, values[1]? with
    | .function, some value => value.asFlag
    | _, _ => pure false
  Value.noMoreThan count values
  pure (variant.provider name isMember)

/-- How providers are read. -/
def variants : Variants Variant Provider :=
  { name := "DefinitionKind"
    variants := [("class", .type), ("function", .function)]
    ofMembers
    ofElements }

/-- Reads a provider that stands on its own. -/
def decode (room : Nat) : Node → Except Refusal Provider := variants.read room

end Provider

/-! ## Definitions -/

/-- A member of a definition. -/
inductive Definition.Member where
  | package (value : String)
  | keyword (value : Keyword)
  | scope (value : Option Scope)
  | qualifier (value : Option String)
  /-- Whether the instance is made at once. -/
  | isEager (value : Bool)
  /-- The further types. -/
  | bindings (value : List String)
  /-- The arguments. -/
  | parameters (value : List Parameter)
  /-- A member that is none of its own. -/
  | foreign (name : String) (value : Value)

namespace Definition

/-- The package that a member gives. -/
def Member.package? : Member → Option String
  | .package value => some value
  | _ => none

/-- The keyword that a member gives. -/
def Member.keyword? : Member → Option Keyword
  | .keyword value => some value
  | _ => none

/-- The scope that a member gives. -/
def Member.scope? : Member → Option (Option Scope)
  | .scope value => some value
  | _ => none

/-- The qualifier that a member gives. -/
def Member.qualifier? : Member → Option (Option String)
  | .qualifier value => some value
  | _ => none

/-- Whether a member says that the instance is made at once. -/
def Member.isEager? : Member → Option Bool
  | .isEager value => some value
  | _ => none

/-- The further types that a member gives. -/
def Member.bindings? : Member → Option (List String)
  | .bindings value => some value
  | _ => none

/-- The arguments that a member gives. -/
def Member.parameters? : Member → Option (List Parameter)
  | .parameters value => some value
  | _ => none

/-- The member, if it is none of the definition's own. -/
def Member.foreign? : Member → Option (String × Value)
  | .foreign name value => some (name, value)
  | _ => none

/-- The names of the definition's own members. -/
def memberNames : List String :=
  ["package_name", "keyword", "scope", "qualifier", "is_created_at_start", "bindings",
    "parameters"]

/-- Reads one member of a definition inside which `room` arrays and objects may
be opened. -/
def readMember (room : Nat) (name : String) (node : Node) : Except Refusal (Option Member) :=
  match name with
  | "package_name" => (readText .text node).map (some ∘ .package)
  | "keyword" => (Keyword.decode node).map (some ∘ .keyword)
  | "scope" => (readOptional Scope.decode node).map (some ∘ .scope)
  | "qualifier" => (readOptional (readText .text) node).map (some ∘ .qualifier)
  | "is_created_at_start" => (readFlag node).map (some ∘ .isEager)
  | "bindings" => (readList (readText .text) node).map (some ∘ .bindings)
  | "parameters" => (readList (Parameter.decode (room - 1)) node).map (some ∘ .parameters)
  | name => (node.keep room).map fun value => some (.foreign name value)

/-- The definition that members describe. -/
def ofMembers (found : List Member) : Except Refusal Definition := do
  let keyword ← required "keyword" Member.keyword? found
  let provider ← Provider.variants.readKept (found.filterMap Member.foreign?)
  pure
    { provider
      package := optional "" Member.package? found
      keyword
      scope := optional none Member.scope? found
      qualifier := optional none Member.qualifier? found
      isEager := optional false Member.isEager? found
      bindings := optional [] Member.bindings? found
      parameters := optional [] Member.parameters? found }

/-- Reads a definition inside which, itself included, `room` arrays and objects
may be opened. -/
def decode (room : Nat) : Node → Except Refusal Definition
  | .object _ members tail =>
      readRecord memberNames (readMember (room - 1)) ofMembers members tail
  | node => node.mismatch (.record "Definition")

end Definition

/-! ## Module references -/

/-- A member of a module reference. -/
inductive ModuleRef.Member where
  | package (value : String)
  /-- The simple name. -/
  | name (value : String)

namespace ModuleRef

/-- The package that a member gives. -/
def Member.package? : Member → Option String
  | .package value => some value
  | _ => none

/-- The simple name that a member gives. -/
def Member.name? : Member → Option String
  | .name value => some value
  | _ => none

/-- Reads one member. -/
def readMember (name : String) (node : Node) : Except Refusal (Option Member) :=
  match name with
  | "package_name" => (readText .text node).map (some ∘ .package)
  | "class_name" => (readText .text node).map (some ∘ .name)
  | _ => node.skip.map fun _ => none

/-- The module reference that members describe. -/
def ofMembers (found : List Member) : Except Refusal ModuleRef := do
  let name ← required "class_name" Member.name? found
  pure { package := optional "" Member.package? found, name }

/-- Reads a module reference. -/
def decode : Node → Except Refusal ModuleRef
  | .object _ members tail =>
      readRecord ["package_name", "class_name"] readMember ofMembers members tail
  | .array _ items tail => do
      let expected := Expected.recordOf "ModuleRef" 2
      let (package, rest) ← (Elements.ofArray items tail).nextD "" (readText .text)
      let (name, rest) ← rest.nextOf 1 expected (readText .text)
      rest.close
      pure { package, name }
  | node => node.mismatch (.record "ModuleRef")

end ModuleRef

/-! ## Modules -/

/-- A member of a module. -/
inductive Module.Member where
  /-- The simple name. -/
  | name (value : String)
  | package (value : String)
  | visibility (value : Visibility)
  | definitions (value : List Definition)
  /-- The modules taken in. -/
  | includes (value : Option (List ModuleRef))

namespace Module

/-- The simple name that a member gives. -/
def Member.name? : Member → Option String
  | .name value => some value
  | _ => none

/-- The package that a member gives. -/
def Member.package? : Member → Option String
  | .package value => some value
  | _ => none

/-- The visibility that a member gives. -/
def Member.visibility? : Member → Option Visibility
  | .visibility value => some value
  | _ => none

/-- The definitions that a member gives. -/
def Member.definitions? : Member → Option (List Definition)
  | .definitions value => some value
  | _ => none

/-- The modules taken in that a member gives. -/
def Member.includes? : Member → Option (Option (List ModuleRef))
  | .includes value => some value
  | _ => none

/-- The names of the members of a module. -/
def memberNames : List String :=
  ["name", "package_name", "visibility", "definitions", "includes"]

/-- Reads one member of a module inside which `room` arrays and objects may be
opened. -/
def readMember (room : Nat) (name : String) (node : Node) : Except Refusal (Option Member) :=
  match name with
  | "name" => (readText .text node).map (some ∘ .name)
  | "package_name" => (readText .text node).map (some ∘ .package)
  | "visibility" => (Visibility.decode node).map (some ∘ .visibility)
  | "definitions" =>
      (readList (Definition.decode (room - 1)) node).map (some ∘ .definitions)
  | "includes" =>
      (readOptional (readList ModuleRef.decode) node).map (some ∘ .includes)
  | _ => node.skip.map fun _ => none

/-- The module that members describe. -/
def ofMembers (found : List Member) : Except Refusal Module := do
  let name ← required "name" Member.name? found
  pure
    { name
      package := optional "" Member.package? found
      visibility := optional .exported Member.visibility? found
      definitions := optional [] Member.definitions? found
      includes := optional none Member.includes? found }

/-- Reads a module inside which, itself included, `room` arrays and objects may
be opened. -/
def decode (room : Nat) : Node → Except Refusal Module
  | .object _ members tail =>
      readRecord memberNames (readMember (room - 1)) ofMembers members tail
  | .array _ items tail => do
      let expected := Expected.recordOf "Module" 5
      let (name, rest) ← (Elements.ofArray items tail).nextOf 0 expected (readText .text)
      let (package, rest) ← rest.nextD "" (readText .text)
      let (visibility, rest) ← rest.nextD .exported Visibility.decode
      let (definitions, rest) ← rest.nextD [] (readList (Definition.decode (room - 2)))
      let (includes, rest) ← rest.nextD none (readOptional (readList ModuleRef.decode))
      rest.close
      pure { name, package, visibility, definitions, includes }
  | node => node.mismatch (.record "Module")

end Module

/-! ## Metadata -/

/-- A member of metadata. -/
inductive Metadata.Member where
  /-- The declared modules. -/
  | modules (value : List Module)
  | defaultSources (value : List Module)

namespace Metadata

/-- The declared modules that a member gives. -/
def Member.modules? : Member → Option (List Module)
  | .modules value => some value
  | _ => none

/-- The sources of the default module that a member gives. -/
def Member.defaultSources? : Member → Option (List Module)
  | .defaultSources value => some value
  | _ => none

/-- Reads one member of metadata inside which `room` arrays and objects may be
opened. -/
def readMember (room : Nat) (name : String) (node : Node) : Except Refusal (Option Member) :=
  match name with
  | "modules" => (readList (Module.decode (room - 1)) node).map (some ∘ .modules)
  | "default_modules" =>
      (readList (Module.decode (room - 1)) node).map (some ∘ .defaultSources)
  | _ => node.skip.map fun _ => none

/-- The names of the members of metadata. -/
def memberNames : List String := ["modules", "default_modules"]

/-- The metadata that members describe. -/
def ofMembers (found : List Member) : Except Refusal Metadata :=
  .ok
    { modules := optional [] Member.modules? found
      defaultSources := optional [] Member.defaultSources? found }

/-- Reads metadata inside which, itself included, `room` arrays and objects may
be opened. -/
def decode (room : Nat) : Node → Except Refusal Metadata
  | .object _ members tail =>
      readRecord memberNames (readMember (room - 1)) ofMembers members tail
  | .array _ items tail => do
      let modules := readList (Module.decode (room - 2))
      let (declared, rest) ← (Elements.ofArray items tail).nextD [] modules
      let (defaultSources, rest) ← rest.nextD [] modules
      rest.close
      pure { modules := declared, defaultSources }
  | node => node.mismatch (.record "MetadataDocument")

/-- Reads the text of a metadata document. -/
def parse (text : String) : Except Refusal Metadata := Json.parse (decode depthLimit) text

end Metadata

/-! ## Metadata on a disk -/

namespace Metadata

/-- Reads metadata from a text and tells where the first fault lies. -/
def ofText (text : String) : Except Failure Metadata :=
  (Json.parsePlaced (decode Json.depthLimit) text).mapError .metadata

/-- The directory that the path of a file names; it is the working directory where
the path is a bare name. -/
def directoryPath (path : String) : String :=
  if (Path.parent path).isEmpty then Path.here else Path.parent path

/-- Reads the metadata that a path leads to. -/
def load (disk : Disk) (directory : Location) (path : String) : Except Failure Metadata := do
  match Path.fileName? path with
  | none => .error (.io path .noFileName)
  | some fileName =>
      match disk.openDirectory directory (directoryPath path) with
      | .error fault => .error (.io (directoryPath path) fault)
      | .ok location =>
          match disk.readTextWithin location fileName with
          | .error fault => .error (.io path fault)
          | .ok text => ofText text

end Metadata

end Wiring
