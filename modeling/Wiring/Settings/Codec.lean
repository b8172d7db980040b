import Wiring.Json.Record
import Wiring.Settings.Basic

/-!
# Settings as JSON

Every setting has a default, so any member may be left out and an array may be
shorter than the record.
-/

namespace Wiring

open Json

/-- Reads a capacity. -/
def Capacity.decode : Node → Except Refusal Capacity
  | .number numeral extent => do
      match ← numeral.read extent.rest with
      | .integer value =>
          match Capacity.ofNat? value.toNat with
          | some capacity => pure capacity
          | none => refuseAt (.unexpectedValue (.integer value) .capacity) extent.rest
      | .real value => refuseAt (.unexpectedType (.real value) .capacity) extent.rest
  | node => node.mismatch .capacity

/-- A member of settings. -/
inductive Settings.Member where
  /-- How many units a routine may hold. -/
  | capacity (value : Capacity)
  /-- The package of generated sources. -/
  | generatedPackage (value : String)
  /-- The output directory. -/
  | outDir (value : String)
  /-- The file of the default unit. -/
  | defaultFile (value : String)

namespace Settings

/-- The name of the setting that a member gives. -/
def Member.name : Member → String
  | .capacity _ => "rows_per_routine"
  | .generatedPackage _ => "generated_package"
  | .outDir _ => "out_dir"
  | .defaultFile _ => "default_module_file"

/-- The value of a member. -/
def Member.encode : Member → Value
  | .capacity value => .natural value.rows
  | .generatedPackage value | .outDir value | .defaultFile value => .text value

/-- The capacity that a member gives. -/
def Member.capacity? : Member → Option Capacity
  | .capacity value => some value
  | _ => none

/-- The package that a member gives. -/
def Member.generatedPackage? : Member → Option String
  | .generatedPackage value => some value
  | _ => none

/-- The output directory that a member gives. -/
def Member.outDir? : Member → Option String
  | .outDir value => some value
  | _ => none

/-- The file of the default unit that a member gives. -/
def Member.defaultFile? : Member → Option String
  | .defaultFile value => some value
  | _ => none

/-- The names of the settings. -/
def memberNames : List String :=
  ["rows_per_routine", "generated_package", "out_dir", "default_module_file"]

/-- Reads one setting. -/
def readMember (name : String) (node : Node) : Except Refusal (Option Member) :=
  match name with
  | "rows_per_routine" => (Capacity.decode node).map (some ∘ .capacity)
  | "generated_package" => (readText .text node).map (some ∘ .generatedPackage)
  | "out_dir" => (readText .path node).map (some ∘ .outDir)
  | "default_module_file" => (readText .text node).map (some ∘ .defaultFile)
  | _ => node.skip.map fun _ => none

/-- The settings that members describe, with the default where there is no member. -/
def gather (found : List Member) : Settings :=
  let standard : Settings := {}
  { capacity := optional standard.capacity Member.capacity? found
    generatedPackage := optional standard.generatedPackage Member.generatedPackage? found
    outDir := optional standard.outDir Member.outDir? found
    defaultFile := optional standard.defaultFile Member.defaultFile? found }

/-- Reads settings. -/
def decode : Node → Except Refusal Settings
  | .object _ members tail => readRecord memberNames readMember (fun found => .ok (gather found)) members tail
  | .array _ items tail => do
      let standard : Settings := {}
      let (capacity, rest) ←
        (Elements.ofArray items tail).nextD standard.capacity Capacity.decode
      let (generatedPackage, rest) ← rest.nextD standard.generatedPackage (readText .text)
      let (outDir, rest) ← rest.nextD standard.outDir (readText .path)
      let (defaultFile, rest) ← rest.nextD standard.defaultFile (readText .text)
      rest.close
      pure { capacity, generatedPackage, outDir, defaultFile }
  | node => node.mismatch (.record "GeneratorConfig")

/-- Settings as members. -/
def members (settings : Settings) : List Member :=
  [.capacity settings.capacity, .generatedPackage settings.generatedPackage,
    .outDir settings.outDir, .defaultFile settings.defaultFile]

/-- Members as a value. -/
def encodeMembers (members : List Member) : Value :=
  .object (members.map fun member => (member.name, member.encode))

/-- Settings as a value. -/
def encode (settings : Settings) : Value := encodeMembers settings.members

theorem encode_eq (settings : Settings) :
    settings.encode =
      .object [("rows_per_routine", .natural settings.capacity.rows),
        ("generated_package", .text settings.generatedPackage),
        ("out_dir", .text settings.outDir),
        ("default_module_file", .text settings.defaultFile)] := rfl

end Settings

/-- The overrides that are given, as members; what is not given is left out. -/
def Overrides.members (overrides : Overrides) : List Settings.Member :=
  (overrides.capacity.map .capacity).toList ++
    (overrides.generatedPackage.map .generatedPackage).toList ++
    (overrides.outDir.map .outDir).toList

/-- The overrides that are given, as a value. -/
def Overrides.encode (overrides : Overrides) : Value := Settings.encodeMembers overrides.members

end Wiring
