import Wiring.Settings.Codec
import Wiring.Settings.Variable
import Wiring.Toml.Document

/-!
# Layers of settings

The defaults, the settings file, the environment and the command line each supply values
under names. They are laid one over the other, and the settings are taken from what comes
of that, in the order of the names. A value that something lies over is never looked at.
-/

namespace Wiring

namespace Settings

/-! ## Dictionaries -/

/-- What a layer supplies under a name, and which layer that is. -/
structure Supply where
  layer : Layer
  found : Found
deriving DecidableEq, Repr, Inhabited

/-- What comes of a value and another one that is laid over it. Two tables are joined to
one table of the upper layer; anything else is covered. -/
def Supply.coalesce (lower upper : Supply) : Supply :=
  match lower.found, upper.found with
  | .map, .map => { layer := upper.layer, found := .map }
  | _, _ => upper

/-- Lays a value over entries in the order of their names. -/
def layEntry (name : String) (supply : Supply) : List (String × Supply) → List (String × Supply)
  | [] => [(name, supply)]
  | entry :: entries =>
      if name < entry.1 then (name, supply) :: entry :: entries
      else if entry.1 < name then entry :: layEntry name supply entries
      else (name, entry.2.coalesce supply) :: entries

theorem Supply.coalesce_eq (lower upper : Supply) : lower.coalesce upper = upper := by
  unfold coalesce
  split
  next hupper => exact congrArg (Supply.mk upper.layer) hupper.symm
  next => rfl

theorem lookup_entry (entry : String × Supply) (entries : List (String × Supply)) (name : String) :
    (entry :: entries).lookup name = if name = entry.1 then some entry.2 else entries.lookup name := by
  obtain ⟨key, supply⟩ := entry
  by_cases h : name = key
  · simp [h]
  · have hne : (name == key) = false := by simpa using h
    simp [List.lookup_cons, h, hne]

theorem lookup_layEntry (name other : String) (supply : Supply) (entries : List (String × Supply)) :
    (layEntry name supply entries).lookup other =
      if other = name then some supply else entries.lookup other := by
  induction entries with
  | nil => exact lookup_entry (name, supply) [] other
  | cons first entries ih =>
      unfold layEntry
      split
      next => exact lookup_entry (name, supply) (first :: entries) other
      next hbefore =>
        split
        next hbehind =>
          have hne : first.1 ≠ name := fun heq => String.lt_irrefl _ (heq ▸ hbehind)
          simp only [lookup_entry, ih]
          by_cases h : other = first.1 <;> simp [h, hne]
        next hbehind =>
          obtain rfl : name = first.1 :=
            String.le_antisymm (String.not_lt.mp hbehind) (String.not_lt.mp hbefore)
          simp only [lookup_entry, Supply.coalesce_eq]
          by_cases h : other = first.1 <;> simp [h]

theorem mem_layEntry {name : String} {supply : Supply} {entries : List (String × Supply)}
    {entry : String × Supply} (hmem : entry ∈ layEntry name supply entries) :
    entry.1 = name ∨ entry ∈ entries := by
  induction entries with
  | nil => simp_all [layEntry]
  | cons first entries ih =>
      unfold layEntry at hmem
      split at hmem
      · rcases List.mem_cons.mp hmem with rfl | hmem
        · exact Or.inl rfl
        · exact Or.inr hmem
      · split at hmem
        · rcases List.mem_cons.mp hmem with rfl | hmem
          · exact Or.inr List.mem_cons_self
          · exact (ih hmem).imp_right (List.mem_cons_of_mem _)
        · rcases List.mem_cons.mp hmem with rfl | hmem
          · exact Or.inl rfl
          · exact Or.inr (List.mem_cons_of_mem _ hmem)

/-- Entries in the order of their names, without a name that comes twice. -/
def IsSorted (entries : List (String × Supply)) : Prop :=
  entries.Pairwise fun first second => first.1 < second.1

theorem IsSorted.layEntry {entries : List (String × Supply)} (h : IsSorted entries)
    (name : String) (supply : Supply) : IsSorted (layEntry name supply entries) := by
  induction entries with
  | nil => exact List.pairwise_singleton _ _
  | cons first entries ih =>
      obtain ⟨hfirst, hentries⟩ := List.pairwise_cons.mp h
      unfold Settings.layEntry
      split
      next hbefore =>
        refine List.pairwise_cons.mpr ⟨?_, h⟩
        intro entry hmem
        rcases List.mem_cons.mp hmem with rfl | hmem
        · exact hbefore
        · exact String.lt_trans hbefore (hfirst entry hmem)
      next hbefore =>
        split
        next hbehind =>
          refine List.pairwise_cons.mpr ⟨?_, ih hentries⟩
          intro entry hmem
          rcases mem_layEntry hmem with hname | hmem
          · exact hname ▸ hbehind
          · exact hfirst entry hmem
        next hbehind =>
          -- neither name goes before the other
          obtain rfl : name = first.1 :=
            String.le_antisymm (String.not_lt.mp hbehind) (String.not_lt.mp hbefore)
          exact List.pairwise_cons.mpr ⟨hfirst, hentries⟩

/-- Values under names. -/
structure Dictionary where
  /-- The names with their values. -/
  entries : List (String × Supply)
  /-- The names are in order, and none comes twice. -/
  sorted : IsSorted entries

namespace Dictionary

/-- Nothing under any name. -/
def empty : Dictionary := ⟨[], List.Pairwise.nil⟩

instance : Inhabited Dictionary := ⟨empty⟩

/-- What is under a name. -/
def get? (dictionary : Dictionary) (name : String) : Option Supply :=
  dictionary.entries.lookup name

/-- Lays one value over a dictionary. -/
def lay (dictionary : Dictionary) (name : String) (supply : Supply) : Dictionary :=
  ⟨layEntry name supply dictionary.entries, dictionary.sorted.layEntry name supply⟩

/-- Lays entries over a dictionary, the last one first. -/
def layAll (dictionary : Dictionary) (entries : List (String × Supply)) : Dictionary :=
  entries.foldr (fun entry dictionary => dictionary.lay entry.1 entry.2) dictionary

/-- Lays a dictionary over another. -/
def merge (lower upper : Dictionary) : Dictionary := lower.layAll upper.entries

/-- What a layer supplies. -/
def ofLayer (layer : Layer) (found : List (String × Found)) : Dictionary :=
  empty.layAll (found.map fun (name, found) => (name, { layer, found }))

@[simp] theorem get?_lay (dictionary : Dictionary) (name other : String) (supply : Supply) :
    (dictionary.lay name supply).get? other =
      if other = name then some supply else dictionary.get? other :=
  lookup_layEntry name other supply dictionary.entries

/-- Since no name comes twice, an entry is what is under its name. -/
theorem get?_eq_some_iff {dictionary : Dictionary} {name : String} {supply : Supply} :
    dictionary.get? name = some supply ↔ (name, supply) ∈ dictionary.entries := by
  obtain ⟨entries, hsorted⟩ := dictionary
  unfold get?
  induction entries with
  | nil => simp
  | cons entry entries ih =>
      obtain ⟨hfirst, hentries⟩ := List.pairwise_cons.mp hsorted
      rw [lookup_entry, List.mem_cons, ← ih hentries]
      by_cases h : name = entry.1
      · subst h
        have hnone : entries.lookup entry.1 ≠ some supply := fun hsome =>
          String.lt_irrefl _ (hfirst (entry.1, supply) ((ih hentries).mp hsome))
        simp [Prod.ext_iff, hnone, eq_comm]
      · simp [Prod.ext_iff, h]

theorem get?_layAll (dictionary : Dictionary) (entries : List (String × Supply)) (name : String) :
    (dictionary.layAll entries).get? name = (entries.lookup name).or (dictionary.get? name) := by
  induction entries with
  | nil => rfl
  | cons entry entries ih =>
      change ((dictionary.layAll entries).lay entry.1 entry.2).get? name = _
      rw [get?_lay, ih]
      rw [lookup_entry]
      by_cases h : name = entry.1 <;> simp [h]

/-- What lies on top is what the upper dictionary holds, or else what the lower one does. -/
theorem get?_merge (lower upper : Dictionary) (name : String) :
    (lower.merge upper).get? name = (upper.get? name).or (lower.get? name) :=
  lower.get?_layAll upper.entries name

theorem get?_ofLayer (layer : Layer) (found : List (String × Found)) (name : String) :
    (ofLayer layer found).get? name = (found.lookup name).map fun found => { layer, found } := by
  rw [ofLayer, get?_layAll]
  induction found with
  | nil => rfl
  | cons entry found ih =>
      obtain ⟨key, value⟩ := entry
      rw [List.map_cons, lookup_entry, List.lookup_cons]
      by_cases h : name = key
      · simp [h]
      · have hne : (name == key) = false := by simpa using h
        simp only [if_neg h, hne]
        exact ih

end Dictionary

/-! ## The layers -/

/-- What a value of the settings file supplies. -/
def Found.ofToml : Toml.Value → Found
  | .text value => .text value
  | .integer value => .signed value
  | .float value => .float value
  | .flag value => .flag value
  | .array _ | .tables _ => .sequence
  | .moment _ | .table .. => .map

/-- What a member supplies. -/
def Found.ofMember : Member → Found
  | .capacity value => .unsigned value.rows
  | .generatedPackage value | .outDir value | .defaultFile value => .text value

namespace Dictionary

/-- What members supply. -/
def ofMembers (layer : Layer) (members : List Member) : Dictionary :=
  ofLayer layer (members.map fun member => (member.name, .ofMember member))

/-- What a settings file supplies. -/
def ofTable (table : Toml.Table) : Dictionary :=
  ofLayer .file (table.map fun (name, value) => (name, .ofToml value))

/-- All layers, each laid over those below it: the defaults, the settings file, the
environment, and the command line. There is nothing to lay if the settings file breaks its
grammar. -/
def ofSources? (file : Option String) (environment : List (String × String))
    (overrides : Overrides) : Option Dictionary := do
  let defaults := ofMembers .defaults ({} : Settings).members
  let below ←
    match file with
    | some text => (Toml.Table.ofText? text).map fun table => defaults.merge (ofTable table)
    | none => some defaults
  pure ((below.merge (ofLayer .environment (ofEnvironment environment))).merge
    (ofMembers .overrides overrides.members))

end Dictionary

/-! ## Taking settings out of a dictionary -/

/-- The text that a value is, if it is one. -/
def Found.text? : Found → Option String
  | .text value => some value
  | _ => none

/-- A supply that is to be a text. -/
def Supply.text (supply : Supply) (expected : Expected) (name : String) : Except Fault String :=
  match supply.found.text? with
  | some value => .ok value
  | none => .error (.unexpectedType supply.found expected name supply.layer)

/-- The whole number that a value is, if it is one. -/
def Found.wholeNumber? : Found → Option Int
  | .unsigned value => some value
  | .signed value => some value
  | _ => none

/-- A supply that is to be a capacity. -/
def Supply.capacity (supply : Supply) (name : String) : Except Fault Capacity :=
  match supply.found.wholeNumber? with
  | none => .error (.unexpectedType supply.found .capacity name supply.layer)
  | some value =>
      match Capacity.ofNat? value.toNat with
      | some capacity => .ok capacity
      | none => .error (.unexpectedValue supply.found .capacity name supply.layer)

/-- Takes one entry for a setting; a name of none is passed over. -/
def takeEntry (name : String) (supply : Supply) : Except Fault (Option Member) :=
  match name with
  | "rows_per_routine" => (supply.capacity name).map (some ∘ .capacity)
  | "generated_package" => (supply.text .text name).map (some ∘ .generatedPackage)
  | "out_dir" => (supply.text .path name).map (some ∘ .outDir)
  | "default_module_file" => (supply.text .text name).map (some ∘ .defaultFile)
  | _ => .ok none

/-- Takes entries for settings, up to the first one that does not fit its setting. -/
def takeEntries : List (String × Supply) → Except Fault (List Member)
  | [] => .ok []
  | (name, supply) :: entries => do
      let found ← takeEntry name supply
      let more ← takeEntries entries
      pure (found.toList ++ more)

/-- The settings in a dictionary. -/
def extract (dictionary : Dictionary) : Except Fault Settings :=
  (takeEntries dictionary.entries).map gather

/-- The settings that a settings file, an environment and overrides make. -/
def resolve (file : Option String) (environment : List (String × String))
    (overrides : Overrides) : Except Fault Settings :=
  match Dictionary.ofSources? file environment overrides with
  | some dictionary => extract dictionary
  | none => .error .grammar

end Settings

end Wiring
