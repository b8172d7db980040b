import Wiring.Decimal.Shortest
import Wiring.Text.Quoted

/-!
# What can be wrong with settings

A layer of settings may not be readable at all, or the value that wins for some
setting may not fit it. The fault then names the setting and the layer in that
layer's own spelling.
-/

namespace Wiring.Settings

open Decimal (Extended)

/-- What a layer supplies for a setting. -/
inductive Found where
  | text (value : String)
  /-- A truth value. -/
  | flag (value : Bool)
  /-- A whole number that was read without regard to signs. -/
  | unsigned (value : Nat)
  /-- A whole number that may be negative. -/
  | signed (value : Int)
  /-- A number with a fraction. -/
  | float (value : Extended)
  /-- A list. -/
  | sequence
  /-- A table. -/
  | map
deriving DecidableEq, Repr, Inhabited

/-- The wording for a found value. -/
def Found.message : Found → String
  | text value => "string " ++ Text.quoted value
  | flag value => "bool " ++ toString value
  | unsigned value => "unsigned int `" ++ toString value ++ "`"
  | signed value => "signed int `" ++ toString value ++ "`"
  | float value => "float `" ++ value.plainText ++ "`"
  | sequence => "sequence"
  | map => "map"

/-- What a setting expects. -/
inductive Expected where
  | text
  /-- A text that names a path. -/
  | path
  /-- A number above zero that a word can hold. -/
  | capacity
deriving DecidableEq, Repr, Inhabited

/-- The wording for an expectation. -/
def Expected.message : Expected → String
  | text => "a string"
  | path => "a UTF-8 path string"
  | capacity => "a nonzero usize"

/-- Where a value comes from; a layer goes before the ones above it here. -/
inductive Layer where
  /-- The settings where nothing else is said. -/
  | defaults
  /-- The settings file. -/
  | file
  | environment
  /-- The command line. -/
  | overrides
deriving DecidableEq, Repr, Inhabited

/-- What every environment variable that holds a setting starts with. -/
def variableStart : String := "KOIN_CODEGEN_"

/-- The name of a layer. What the program supplies itself always fits, so that a message
names the settings file or the environment. -/
def Layer.message : Layer → String
  | defaults => "GeneratorConfig"
  | file => "TOML source string"
  | environment => "`" ++ variableStart ++ "` environment variable(s)"
  | overrides => "ConfigOverrides"

/-- How a layer spells the name of a setting. -/
def Layer.key (layer : Layer) (name : String) : String :=
  match layer with
  | environment => name.map Char.toUpper
  | defaults | file | overrides => "default." ++ name

/-- What is wrong with settings. -/
inductive Fault where
  /-- The settings file breaks its grammar. -/
  | grammar
  /-- A value of the wrong type. -/
  | unexpectedType (found : Found) (expected : Expected) (name : String) (layer : Layer)
  /-- A value of the right type that is not allowed. -/
  | unexpectedValue (found : Found) (expected : Expected) (name : String) (layer : Layer)
  /-- Any other problem, in its own words. -/
  | other (text : String)
deriving DecidableEq, Repr, Inhabited

/-- The layer whose value does not fit, if it is a value that does not. -/
def Fault.layer? : Fault → Option Layer
  | unexpectedType _ _ _ layer | unexpectedValue _ _ _ layer => some layer
  | grammar | other _ => none

/-- What was expected, for which setting, and in which layer. -/
def place (expected : Expected) (name : String) (layer : Layer) : String :=
  expected.message ++ " for key \"" ++ layer.key name ++ "\" in " ++ layer.message

/-- The wording of a fault. -/
def Fault.message : Fault → String
  | grammar => "TOML parse error"
  | unexpectedType found expected name layer =>
      "invalid type: found " ++ found.message ++ ", expected " ++ place expected name layer
  | unexpectedValue found expected name layer =>
      "invalid value " ++ found.message ++ ", expected " ++ place expected name layer
  | other text => text

end Wiring.Settings
