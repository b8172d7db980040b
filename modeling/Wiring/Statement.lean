import Wiring.Fragment
import Wiring.Text.Basic

/-!
# Registration statements

A definition becomes one statement of the registration language: its keyword
with options, a block that calls its provider with the arguments looked up, and
the further types it is bound to. A definition without a name has no statement,
nor has a member function where there is no module instance.
-/

namespace Wiring

/-- Where a statement stands. -/
inductive Place where
  /-- In a routine, where the module instance has a name. -/
  | routine (instanceName : String)
  /-- In the default module, which has no instance. -/
  | defaultModule
deriving DecidableEq, Repr, Inhabited

/-- Why a definition has no statement. -/
inductive Defect where
  /-- Its name is blank. -/
  | emptyName
  /-- It is called through a module instance, and there is none. -/
  | memberOutsideModule
deriving DecidableEq, Repr, Inhabited

/-- The wording of a defect. -/
def Defect.message : Defect → String
  | emptyName => "has an empty class or function name"
  | memberOutsideModule =>
      "is a class-bound function but has no module instance to call it through"

/-- The argument that passes a qualifier. -/
def qualifierArgument (qualifier : String) : String :=
  "qualifier=" ++ Fragment.qualifierType ++ "(" ++ Text.literal qualifier ++ ")"

namespace Parameter

/-- The expression that looks the argument up. -/
def argument : Parameter → String
  | dependency qualifier isNullable isLazy =>
      let lookup :=
        match isLazy, isNullable with
        | false, false => "get"
        | false, true => "getOrNull"
        | true, false => "inject"
        | true, true => "injectOrNull"
      lookup ++ "(" ++ (qualifier.map qualifierArgument).getD "" ++ ")"
  | injected false => "params.get()"
  | injected true => "params.getOrNull()"
  | property key isNullable =>
      (if isNullable then "getPropertyOrNull" else "getProperty") ++
        "(" ++ Text.literal key ++ ")"
  | all => "getAll()"

end Parameter

namespace Provider

/-- What is called to make the instance. -/
def target (provider : Provider) (package : String) (place : Place) : Except Defect String :=
  match provider, place with
  | type name, _ => .ok (qualify package name)
  | function name false, _ => .ok (qualify package name)
  | function name true, .routine instanceName => .ok (instanceName ++ "." ++ name)
  | function _ true, .defaultModule => .error .memberOutsideModule

end Provider

namespace Definition

/-- The options of the keyword. -/
def options (definition : Definition) : String :=
  ",".intercalate <|
    (definition.qualifier.map qualifierArgument).toList ++
      (if definition.isEager then ["createdAtStart=true"] else [])

/-- The receiver of the block, which names what the caller hands over. -/
def receiver (definition : Definition) : String :=
  if definition.parameters.any Parameter.isInjected then "params -> " else ""

/-- The arguments of the call. -/
def arguments (definition : Definition) : String :=
  ",".intercalate (definition.parameters.map Parameter.argument)

/-- The further types behind the block. -/
def bindingText (definition : Definition) : String :=
  match definition.bindings with
  | [] => ""
  | [type] => " bind(" ++ type ++ "::class)"
  | types => " binds(arrayOf(" ++ ",".intercalate (types.map (· ++ "::class")) ++ "))"

/-- The statement that registers the definition. -/
def statement (definition : Definition) (place : Place) : Except Defect String :=
  if Text.isBlankText definition.name then .error .emptyName
  else
    match definition.provider.target definition.package place with
    | .error defect => .error defect
    | .ok target =>
        .ok (Fragment.newLine ++ definition.keyword.name ++ "(" ++ definition.options ++
          ") \x7b " ++ definition.receiver ++ target ++ "(" ++ definition.arguments ++
          ") \x7d" ++ definition.bindingText)

end Definition

/-- The expression through which an included module is reached. -/
def ModuleRef.accessor (reference : ModuleRef) : String :=
  qualify reference.package reference.name ++ "().module"

/-- The statement that takes other modules in. -/
def includesStatement (references : List ModuleRef) : String :=
  Fragment.newLine ++ "includes(" ++ ", ".intercalate (references.map ModuleRef.accessor) ++ ")"

/-- The statement that opens the block of a scope. -/
def Scope.opening : Scope → String
  | type name => Fragment.newLine ++ "scope<" ++ name ++ "> \x7b"
  | named name =>
      Fragment.newLine ++ "scope(" ++ Fragment.namedFunction ++ "(" ++ Text.literal name ++
        ")) \x7b"

/-- One line per definition whose keyword needs an import, repetitions kept, and
a line end. -/
def importLines (definitions : List Definition) : String :=
  "\n".intercalate
    (definitions.filterMap fun definition =>
      definition.keyword.importPath.map ("import " ++ ·)) ++ "\n"

end Wiring
