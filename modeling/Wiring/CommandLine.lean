import Wiring.Settings.Basic
import Wiring.Text.Basic
import Wiring.Text.Terminal

/-!
# The command line

Arguments are read from left to right. A flag takes its value from behind an equals
sign or from the next argument, unless that looks like a flag itself. A value that
is an argument of its own is only checked when the next flag, or the end, is
reached; an argument that nobody knows is reported before that.
-/

namespace Wiring.CommandLine

/-- A flag that takes a value. -/
inductive Flag where
  /-- The metadata to read. -/
  | metadata
  /-- The settings file to read. -/
  | settingsFile
  /-- The directory to write to. -/
  | outDir
  /-- How many units a routine may hold. -/
  | capacity
  /-- The package of generated sources. -/
  | package
deriving DecidableEq, Repr, Inhabited

namespace Flag

/-- All flags that take a value. -/
def all : List Flag := [metadata, settingsFile, outDir, capacity, package]

/-- The name of a flag. -/
def name : Flag → String
  | metadata => "metadata"
  | settingsFile => "config"
  | outDir => "out-dir"
  | capacity => "rows-per-routine"
  | package => "package"

/-- What the value of a flag stands for. -/
def valueName : Flag → String
  | capacity => "count"
  | package => "package"
  | _ => "path"

/-- How messages show a flag. -/
def shown (flag : Flag) : String := "--" ++ flag.name ++ " <" ++ flag.valueName ++ ">"

/-- The flag of a name. -/
def ofName? (name : String) : Option Flag := all.find? fun flag => flag.name = name

end Flag

/-- A flag that asks for an answer instead of a run. -/
inductive Question where
  /-- How to use the program. -/
  | help
  | version
deriving DecidableEq, Repr, Inhabited

namespace Question

/-- The name of the flag. -/
def name : Question → String
  | help => "help"
  | version => "version"

/-- The question of a name. -/
def ofName? (name : String) : Option Question :=
  [help, version].find? fun question => question.name = name

/-- The question of a single letter. -/
def ofLetter? : Char → Option Question
  | 'h' => some help
  | 'V' => some version
  | _ => none

/-- The name of the program. -/
def programName : String := "koin-codegen"

/-- What the program answers. -/
def answer : Question → String
  | help =>
      "Generate chunked Koin module sources from definition metadata\n\n" ++
        "Usage: koin-codegen [OPTIONS] --metadata <path>\n\nOptions:\n" ++
        "      --metadata <path>           " ++
        "Metadata document describing modules and definitions (JSON)\n" ++
        "      --config <path>             " ++
        "Configuration file; defaults to `koin-codegen.toml` when present\n" ++
        "      --out-dir <path>            Output directory for generated sources\n" ++
        "      --rows-per-routine <count>  Maximum registrations per generated routine\n" ++
        "      --package <package>         Package declared by generated sources\n" ++
        "  -h, --help                      Print help\n" ++
        "  -V, --version                   Print version\n"
  | version => programName ++ " 0.3.0\n"

end Question

/-- Why a text is no capacity. -/
inductive CountFault where
  /-- There is no digit. -/
  | empty
  /-- There is something else than digits. -/
  | notDigit
  /-- The number does not fit a word. -/
  | tooLarge
  /-- The number is zero. -/
  | zero
deriving DecidableEq, Repr, Inhabited

/-- The wording for a text that is no capacity. -/
def CountFault.message : CountFault → String
  | empty => "cannot parse integer from empty string"
  | notDigit => "invalid digit found in string"
  | tooLarge => "number too large to fit in target type"
  | zero => "number would be zero for non-zero type"

/-- What is wrong with the arguments. -/
inductive Fault where
  /-- A flag has no value. -/
  | missingValue (flag : Flag)
  /-- A count is none. -/
  | invalidCount (value : String) (cause : CountFault)
  /-- A flag is given twice. -/
  | repeated (flag : Flag)
  /-- A flag that takes no value has one. -/
  | unneededValue (question : Question) (value : String)
  /-- An argument has no meaning. -/
  | unknown (argument : String)
  /-- The metadata is not given. -/
  | missingMetadata
deriving DecidableEq, Repr, Inhabited

/-- The first line of the wording of a fault. What was given is shown without terminal
control. -/
def Fault.message : Fault → String
  | missingValue flag =>
      "error: a value is required for '" ++ flag.shown ++ "' but none was supplied"
  | invalidCount value cause =>
      "error: invalid value '" ++ Text.withoutControl value ++ "' for '" ++
        Flag.capacity.shown ++ "': " ++ cause.message
  | repeated flag =>
      "error: the argument '" ++ flag.shown ++ "' cannot be used multiple times"
  | unneededValue question value =>
      "error: unexpected value '" ++ Text.withoutControl value ++ "' for '--" ++
        question.name ++ "' found; no more were expected"
  | unknown argument =>
      "error: unexpected argument '" ++ Text.withoutControl argument ++ "' found"
  | missingMetadata => "error: the following required arguments were not provided:"

/-- What a run is asked to do. -/
structure Arguments where
  /-- The metadata to read. -/
  metadata : String
  /-- The settings file to read. -/
  settingsFile : Option String := none
  /-- The settings that are given. -/
  overrides : Overrides := {}
deriving DecidableEq, Repr, Inhabited

/-- What the arguments ask for. -/
inductive Request where
  | run (arguments : Arguments)
  /-- An answer. -/
  | ask (question : Question)
deriving DecidableEq, Repr, Inhabited

/-! ## Values -/

/-- Reads digits behind a value; the first character that is no digit, or that
makes the number too large, decides. -/
def readCount : Nat → List Char → Except CountFault Nat
  | value, [] => .ok value
  | value, c :: rest =>
      if !c.isDigit then .error .notDigit
      else
        let next := value * 10 + Text.digitValue c
        if Word.count ≤ next then .error .tooLarge else readCount next rest

/-- The capacity that a text spells; a plus sign may come first. -/
def capacityOfText (text : String) : Except CountFault Capacity := do
  let digits :=
    match text.toList with
    | '+' :: c :: rest => c :: rest
    | chars => chars
  if digits.isEmpty then throw .empty
  match Capacity.ofNat? (← readCount 0 digits) with
  | some capacity => pure capacity
  | none => throw .zero

/-- The values that were checked. -/
structure Given where
  /-- The metadata to read. -/
  metadata : Option String := none
  /-- The settings file to read. -/
  settingsFile : Option String := none
  /-- The settings that are given. -/
  overrides : Overrides := {}
deriving DecidableEq, Repr, Inhabited

namespace Given

/-- Whether a flag was given. -/
def has (given : Given) : Flag → Bool
  | .metadata => given.metadata.isSome
  | .settingsFile => given.settingsFile.isSome
  | .outDir => given.overrides.outDir.isSome
  | .capacity => given.overrides.capacity.isSome
  | .package => given.overrides.generatedPackage.isSome

/-- Checks a value and adds it; a flag counts once. -/
def add (given : Given) (flag : Flag) (value : String) : Except Fault Given := do
  if given.has flag then throw (.repeated flag)
  let overrides := given.overrides
  match flag with
  | .metadata => pure { given with metadata := some value }
  | .settingsFile => pure { given with settingsFile := some value }
  | .outDir => pure { given with overrides := { overrides with outDir := some value } }
  | .package =>
      pure { given with overrides := { overrides with generatedPackage := some value } }
  | .capacity =>
      match capacityOfText value with
      | .ok capacity =>
          pure { given with overrides := { overrides with capacity := some capacity } }
      | .error cause => throw (.invalidCount value cause)

/-- What was asked for, if nothing is missing. -/
def arguments (given : Given) : Except Fault Arguments :=
  match given.metadata with
  | some metadata =>
      .ok { metadata, settingsFile := given.settingsFile, overrides := given.overrides }
  | none => .error .missingMetadata

end Given

/-! ## Arguments -/

/-- How an argument is spelled. -/
inductive Spelled where
  /-- Two dashes: no flag follows any more. -/
  | endOfFlags
  /-- Two dashes and a name, which may have a value behind an equals sign. -/
  | long (name : String) (value : Option String)
  /-- A dash and letters. -/
  | short (letters : List Char)
  /-- Anything else. -/
  | plain
deriving DecidableEq, Repr

/-- The spelling of an argument; a lone dash is no flag. -/
def Spelled.ofText (argument : String) : Spelled :=
  match argument.toList with
  | ['-', '-'] => .endOfFlags
  | '-' :: '-' :: rest =>
      let name := String.ofList (rest.takeWhile (· ≠ '='))
      match rest.dropWhile (· ≠ '=') with
      | _ :: value => .long name (some (String.ofList value))
      | [] => .long name none
  | '-' :: c :: rest => .short (c :: rest)
  | _ => .plain

/-- A flag whose value was not checked yet. -/
structure Pending where
  flag : Flag
  /-- Its value, if it came already. -/
  value : Option String
deriving DecidableEq, Repr, Inhabited

/-- Checks the value of the flag that is pending, if any. -/
def settle (given : Given) : Option Pending → Except Fault Given
  | none => .ok given
  | some pending =>
      match pending.value with
      | some value => given.add pending.flag value
      | none => .error (.missingValue pending.flag)

/-- How an argument is shown that has no meaning. -/
def Spelled.shown (argument : String) : Spelled → String
  | .long name _ => "--" ++ name
  | .short (c :: _) => String.ofList ['-', c]
  | _ => argument

/-- Reads arguments. The flag tells whether flags may still come. -/
def readArguments (given : Given) (pending : Option Pending) (hasFlags : Bool) :
    List String → Except Fault Request
  | [] => do
      let given ← settle given pending
      pure (.run (← given.arguments))
  | argument :: rest =>
      let spelled := if hasFlags then Spelled.ofText argument else .plain
      match spelled with
      | .endOfFlags => readArguments given pending false rest
      | .long name value =>
          match Flag.ofName? name, Question.ofName? name, value with
          | some flag, _, some value => do
              let given ← settle given pending
              readArguments (← given.add flag value) none true rest
          | some flag, _, none => do
              let given ← settle given pending
              readArguments given (some { flag, value := none }) true rest
          | none, some question, none => do
              let _ ← settle given pending
              pure (.ask question)
          | none, some question, some value => .error (.unneededValue question value)
          | none, none, _ => .error (.unknown (spelled.shown argument))
      | .short letters =>
          match letters.head?.bind Question.ofLetter? with
          | some question => do
              let _ ← settle given pending
              pure (.ask question)
          | none => .error (.unknown (spelled.shown argument))
      | .plain =>
          match pending with
          | some { flag, value := none } =>
              if hasFlags then
                readArguments given (some { flag, value := some argument }) true rest
              else .error (.unknown argument)
          | _ => .error (.unknown argument)

/-- What the arguments behind the program's name ask for. -/
def read (arguments : List String) : Except Fault Request :=
  readArguments {} none true arguments

end Wiring.CommandLine
