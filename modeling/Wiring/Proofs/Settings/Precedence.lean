import Wiring.Settings.Load

/-!
# Precedence of the layers

Every setting is settled on its own, by the highest layer that supplies anything for it: the
command line, the environment, the settings file, the defaults. Only what that layer
supplies has to be a value of the setting, whatever stands in the layers below. What the
program supplies itself always is one.
-/

namespace Wiring

open Settings (Dictionary Found)

/-- One of the settings of a run. -/
inductive Setting where
  | capacity
  | generatedPackage
  | outDir
  | defaultFile
deriving DecidableEq, Repr

namespace Setting

/-- What a setting can be. -/
abbrev Value : Setting → Type
  | capacity => Capacity
  | generatedPackage | outDir | defaultFile => String

/-- The name of a setting in a settings file. -/
def name : Setting → String
  | capacity => "rows_per_routine"
  | generatedPackage => "generated_package"
  | outDir => "out_dir"
  | defaultFile => "default_module_file"

/-- The environment variable that holds a setting. -/
def variableName (setting : Setting) : String :=
  Settings.variableStart ++ setting.name.map Char.toUpper

/-- What a setting is among all of them. -/
def get (settings : Settings) : (setting : Setting) → setting.Value
  | capacity => settings.capacity
  | generatedPackage => settings.generatedPackage
  | outDir => settings.outDir
  | defaultFile => settings.defaultFile

/-- Values for each setting make settings. -/
theorem exists_settings_iff {p : (setting : Setting) → setting.Value → Prop} :
    (∃ settings, ∀ setting : Setting, p setting (setting.get settings)) ↔
      ∀ setting : Setting, ∃ value, p setting value := by
  constructor
  · rintro ⟨settings, hsettings⟩ setting
    exact ⟨_, hsettings setting⟩
  · intro h
    obtain ⟨capacity, hcapacity⟩ := h capacity
    obtain ⟨generatedPackage, hpackage⟩ := h generatedPackage
    obtain ⟨outDir, houtDir⟩ := h outDir
    obtain ⟨defaultFile, hdefaultFile⟩ := h defaultFile
    refine ⟨{ capacity, generatedPackage, outDir, defaultFile }, fun setting => ?_⟩
    cases setting <;> assumption

/-- What the command line says of a setting; the file of the default unit cannot be given
there. -/
def override (overrides : Overrides) : (setting : Setting) → Option setting.Value
  | capacity => overrides.capacity
  | generatedPackage => overrides.generatedPackage
  | outDir => overrides.outDir
  | defaultFile => none

/-- What was found is this value of the setting: a whole number for a capacity, and a text
for any other one. -/
def Spells : (setting : Setting) → Found → setting.Value → Prop
  | capacity, found, value => found = .unsigned value.rows ∨ found = .signed value.rows
  | generatedPackage, found, value => found = .text value
  | outDir, found, value => found = .text value
  | defaultFile, found, value => found = .text value

/-- What a layer supplies for a setting: one of its values, or what may not be one. -/
inductive Supply (setting : Setting) where
  | given (value : setting.Value)
  | raw (found : Found)

/-- The setting is to be this value. -/
def Supply.Gives {setting : Setting} : setting.Supply → setting.Value → Prop
  | given value, result => value = result
  | raw found, result => setting.Spells found result

/-- What the highest layer supplies that supplies anything: the command line, then the
environment, then the settings file. The defaults supply every setting. -/
def supplied (overrides : Overrides) (held : Setting → Option String) (file : Toml.Table)
    (setting : Setting) : setting.Supply :=
  let layers : List (Option setting.Supply) :=
    [(setting.override overrides).map .given,
      (held setting).map fun text => .raw (.ofVariable text),
      (file.lookup setting.name).map fun value => .raw (.ofToml value)]
  (layers.findSome? id).getD (.given (setting.get {}))

theorem supplied_of_lower {overrides : Overrides} {held : Setting → Option String}
    {file : Toml.Table} {setting : Setting} (hoverride : setting.override overrides = none)
    (hvariable : held setting = none) : setting.supplied overrides held file =
      match file.lookup setting.name with
      | some value => .raw (.ofToml value)
      | none => .given (setting.get {}) := by
  simp only [supplied, hoverride, hvariable]
  cases file.lookup setting.name <;> rfl

theorem name_injective : Function.Injective name := by
  intro first second heq
  cases first <;> cases second <;> first | rfl | (simp [name] at heq)

theorem nameParts?_variableName (setting : Setting) :
    Settings.nameParts? setting.variableName = some [setting.name] := by
  cases setting <;> decide +kernel

end Setting

/-! ## The environment -/

namespace Settings

/-- The environment holds these texts for settings, in whatever order, and nothing else
supplies one. -/
structure Holds (environment : List (String × String))
    (held : Setting → Option String) : Prop where
  mem_iff : ∀ (setting : Setting) (text : String),
    (setting.variableName, text) ∈ environment ↔ held setting = some text
  /-- No other variable is taken for one that holds a setting. -/
  only : ∀ entry ∈ environment, ∀ setting : Setting,
    (nameParts? entry.1).bind List.head? = some setting.name → entry.1 = setting.variableName

namespace Holds

variable {environment : List (String × String)} {held : Setting → Option String}

/-- What the environment is read as holds the same settings. -/
theorem mem_ofEnvironment_iff (h : Holds environment held) {setting : Setting}
    {found : Found} : (setting.name, found) ∈ ofEnvironment environment ↔
      ∃ text, held setting = some text ∧ found = .ofVariable text := by
  unfold ofEnvironment
  rw [List.mem_filterMap]
  constructor
  · rintro ⟨⟨fullName, text⟩, hmem, hentry⟩
    have hmem := List.mem_reverse.mp hmem
    -- whatever supplies the setting has the name of its variable
    have hname : (nameParts? fullName).bind List.head? = some setting.name := by
      dsimp only at hentry
      split at hentry
      next name hparts => simp_all
      next name parts _ hparts => simp_all
      next => cases hentry
    obtain rfl : fullName = setting.variableName := h.only _ hmem setting hname
    simp only [setting.nameParts?_variableName, Option.some.injEq, Prod.mk.injEq, true_and]
      at hentry
    exact ⟨text, (h.mem_iff setting text).mp hmem, hentry.symm⟩
  · rintro ⟨text, htext, rfl⟩
    refine ⟨(setting.variableName, text), ?_, ?_⟩
    · exact List.mem_reverse.mpr ((h.mem_iff setting text).mpr htext)
    · simp only [setting.nameParts?_variableName]

theorem lookup_ofEnvironment (h : Holds environment held) (setting : Setting) :
    (ofEnvironment environment).lookup setting.name =
      (held setting).map Found.ofVariable := by
  cases hlookup : (ofEnvironment environment).lookup setting.name with
  | none =>
      cases htext : held setting with
      | none => rfl
      | some text =>
          have hmem := h.mem_ofEnvironment_iff.mpr ⟨text, htext, rfl⟩
          simpa using List.lookup_eq_none_iff.mp hlookup _ hmem
  | some found =>
      obtain ⟨before, after, heq, -⟩ := List.lookup_eq_some_iff.mp hlookup
      have hmem : (setting.name, found) ∈ ofEnvironment environment := by simp [heq]
      obtain ⟨text, htext, rfl⟩ := h.mem_ofEnvironment_iff.mp hmem
      rw [htext]
      rfl

end Holds

end Settings

/-! ## One setting -/

/-- A capacity is above zero, so no negative number is taken for one. -/
theorem Capacity.ofNat?_toNat_eq_some_iff {number : Int} {capacity : Capacity} :
    Capacity.ofNat? number.toNat = some capacity ↔ number = capacity.rows := by
  have hpos := capacity.rows_pos
  rw [Capacity.ofNat?_eq_some_iff]
  omega

namespace Setting

/-- The member that gives a setting. -/
def member : (setting : Setting) → setting.Value → Settings.Member
  | capacity => .capacity
  | generatedPackage => .generatedPackage
  | outDir => .outDir
  | defaultFile => .defaultFile

/-- What a member gives for a setting. -/
def pick : (setting : Setting) → Settings.Member → Option setting.Value
  | capacity => Settings.Member.capacity?
  | generatedPackage => Settings.Member.generatedPackage?
  | outDir => Settings.Member.outDir?
  | defaultFile => Settings.Member.defaultFile?

/-- What the program supplies for a value of a setting. -/
def found (setting : Setting) (value : setting.Value) : Found := .ofMember (setting.member value)

theorem pick_member (setting : Setting) (value : setting.Value) :
    setting.pick (setting.member value) = some value := by
  cases setting <;> rfl

theorem pick_member_of_ne {setting other : Setting} (hne : setting ≠ other) (value : other.Value) :
    setting.pick (other.member value) = none := by
  cases setting <;> cases other <;> first | rfl | exact absurd rfl hne

theorem get_gather (members : List Settings.Member) (setting : Setting) :
    setting.get (Settings.gather members) =
      (members.findSome? setting.pick).getD (setting.get {}) := by
  cases setting <;> rfl

theorem settings_ext {first second : Settings}
    (h : ∀ setting : Setting, setting.get first = setting.get second) : first = second := by
  have hcapacity : first.capacity = second.capacity := h capacity
  have hpackage : first.generatedPackage = second.generatedPackage := h generatedPackage
  have houtDir : first.outDir = second.outDir := h outDir
  have hdefaultFile : first.defaultFile = second.defaultFile := h defaultFile
  cases first
  cases second
  simp_all

/-! ### What a supply is taken for -/

/-- The value of a setting that was found, if it is one. -/
def value? : (setting : Setting) → Found → Option setting.Value
  | capacity, found => found.wholeNumber?.bind fun number => Capacity.ofNat? number.toNat
  | generatedPackage, found => found.text?
  | outDir, found => found.text?
  | defaultFile, found => found.text?

theorem spells_iff {setting : Setting} {found : Found} {value : setting.Value} :
    setting.Spells found value ↔ setting.value? found = some value := by
  cases setting with
  | capacity =>
      cases found with
      | unsigned count => simp [Spells, value?, Found.wholeNumber?, Capacity.ofNat?_eq_some_iff]
      | signed number =>
          simp only [Spells, value?, Found.wholeNumber?, reduceCtorEq, Found.signed.injEq, false_or,
            Option.bind_some, Capacity.ofNat?_toNat_eq_some_iff]
      | _ => simp [Spells, value?, Found.wholeNumber?]
  | _ => cases found <;> simp [Spells, value?, Found.text?]

/-- What the program supplies for a value is taken for that value. -/
theorem value?_found (setting : Setting) (value : setting.Value) :
    setting.value? (setting.found value) = some value := by
  cases setting with
  | capacity => exact Capacity.ofNat?_eq_some_iff.mpr rfl
  | _ => rfl

variable {setting : Setting} {supply : Settings.Supply}

theorem text_eq_ok {value : String} (h : supply.found.text? = some value)
    (expected : Settings.Expected) (name : String) : supply.text expected name = .ok value := by
  unfold Settings.Supply.text
  rw [h]

theorem text_eq_error (h : supply.found.text? = none) (expected : Settings.Expected)
    (name : String) : supply.text expected name =
      .error (.unexpectedType supply.found expected name supply.layer) := by
  unfold Settings.Supply.text
  rw [h]

theorem takeEntry_eq_ok {value : setting.Value} (h : setting.value? supply.found = some value) :
    Settings.takeEntry setting.name supply = .ok (some (setting.member value)) := by
  cases setting with
  | capacity =>
      obtain ⟨number, hnumber, hcapacity⟩ := Option.bind_eq_some_iff.mp h
      simp only [Settings.takeEntry, name, Settings.Supply.capacity, hnumber, hcapacity]
      rfl
  | generatedPackage =>
      simp only [Settings.takeEntry, name, text_eq_ok h]
      rfl
  | outDir =>
      simp only [Settings.takeEntry, name, text_eq_ok h]
      rfl
  | defaultFile =>
      simp only [Settings.takeEntry, name, text_eq_ok h]
      rfl

/-- A supply that is no value of the setting is refused, and the fault names its layer. -/
theorem takeEntry_eq_error (h : setting.value? supply.found = none) :
    ∃ fault, Settings.takeEntry setting.name supply = .error fault ∧
      fault.layer? = some supply.layer := by
  cases setting with
  | capacity =>
      simp only [Settings.takeEntry, name, Settings.Supply.capacity]
      cases hnumber : supply.found.wholeNumber? with
      | none => exact ⟨_, rfl, rfl⟩
      | some number =>
          have hcapacity : Capacity.ofNat? number.toNat = none := by
            simpa [value?, hnumber] using h
          simp only [hcapacity]
          exact ⟨_, rfl, rfl⟩
  | generatedPackage =>
      simp only [Settings.takeEntry, name, text_eq_error h]
      exact ⟨_, rfl, rfl⟩
  | outDir =>
      simp only [Settings.takeEntry, name, text_eq_error h]
      exact ⟨_, rfl, rfl⟩
  | defaultFile =>
      simp only [Settings.takeEntry, name, text_eq_error h]
      exact ⟨_, rfl, rfl⟩

theorem takeEntry_of_ne {key : String} (h : ∀ setting : Setting, setting.name ≠ key)
    (supply : Settings.Supply) : Settings.takeEntry key supply = .ok none := by
  have hrows := h capacity
  have hpackage := h generatedPackage
  have houtDir := h outDir
  have hdefaultFile := h defaultFile
  unfold Settings.takeEntry
  split <;> simp_all [name]

/-- An entry is of one setting, or is passed over. -/
theorem name_cases (key : String) :
    (∃ setting : Setting, setting.name = key) ∨ ∀ setting : Setting, setting.name ≠ key := by
  by_cases h : ∃ setting : Setting, setting.name = key
  · exact Or.inl h
  · exact Or.inr fun setting heq => h ⟨setting, heq⟩

end Setting

/-! ## All settings -/

namespace Settings

section Taking

variable {entries : List (String × Supply)} {dictionary : Dictionary} {settings : Settings}

/-- What is taken for a setting is what the entry of its name spells. -/
theorem findSome?_of_takeEntries {members : List Member} (h : takeEntries entries = .ok members)
    (setting : Setting) :
    members.findSome? setting.pick =
      (entries.lookup setting.name).bind fun supply => setting.value? supply.found := by
  induction entries generalizing members with
  | nil =>
      obtain rfl : [] = members := Except.ok.inj h
      rfl
  | cons entry entries ih =>
      obtain ⟨key, supply⟩ := entry
      obtain ⟨taken, htaken, h⟩ := bind_eq_ok_iff.mp h
      obtain ⟨more, hmore, h⟩ := bind_eq_ok_iff.mp h
      obtain rfl : taken.toList ++ more = members := Except.ok.inj h
      rw [lookup_entry]
      rcases Setting.name_cases key with ⟨other, rfl⟩ | hnone
      · cases hvalue : other.value? supply.found with
        | none =>
            obtain ⟨fault, hfault, -⟩ := Setting.takeEntry_eq_error hvalue
            simp [hfault] at htaken
        | some value =>
            obtain rfl : some (other.member value) = taken :=
              Except.ok.inj ((Setting.takeEntry_eq_ok hvalue).symm.trans htaken)
            rw [Option.toList_some, List.singleton_append, List.findSome?_cons]
            by_cases hother : setting = other
            · subst hother
              simp [Setting.pick_member, hvalue]
            · have hname : setting.name ≠ other.name := fun heq =>
                hother (Setting.name_injective heq)
              rw [Setting.pick_member_of_ne hother, if_neg hname]
              exact ih hmore
      · obtain rfl : none = taken :=
          Except.ok.inj ((Setting.takeEntry_of_ne hnone supply).symm.trans htaken)
        rw [if_neg (hnone setting)]
        exact ih hmore

/-- Where entries are refused, one of them has the name of a setting and is no value of
it. -/
theorem exists_of_takeEntries_eq_error {fault : Fault} (h : takeEntries entries = .error fault) :
    ∃ setting : Setting, ∃ supply, (setting.name, supply) ∈ entries ∧
      setting.value? supply.found = none ∧ fault.layer? = some supply.layer := by
  induction entries with
  | nil => cases h
  | cons entry entries ih =>
      obtain ⟨key, supply⟩ := entry
      cases htaken : takeEntry key supply with
      | ok taken =>
          cases hmore : takeEntries entries with
          | ok more => simp [takeEntries, htaken, hmore, bind, Except.bind, pure, Except.pure] at h
          | error refused =>
              obtain rfl : refused = fault := by
                simpa [takeEntries, htaken, hmore, bind, Except.bind] using h
              obtain ⟨setting, other, hmem, hrest⟩ := ih hmore
              exact ⟨setting, other, List.mem_cons_of_mem _ hmem, hrest⟩
      | error refused =>
          obtain rfl : refused = fault := by
            simpa [takeEntries, htaken, bind, Except.bind] using h
          rcases Setting.name_cases key with ⟨setting, rfl⟩ | hnone
          · cases hvalue : setting.value? supply.found with
            | some value => simp [Setting.takeEntry_eq_ok hvalue] at htaken
            | none =>
                obtain ⟨named, hnamed, hlayer⟩ := Setting.takeEntry_eq_error hvalue
                obtain rfl : named = refused := Except.error.inj (hnamed.symm.trans htaken)
                exact ⟨setting, supply, List.mem_cons_self, hvalue, hlayer⟩
          · simp [Setting.takeEntry_of_ne hnone] at htaken

theorem takeEntries_ne_ok {setting : Setting} {supply : Supply}
    (hmem : (setting.name, supply) ∈ entries) (hvalue : setting.value? supply.found = none)
    (members : List Member) : takeEntries entries ≠ .ok members := by
  induction entries generalizing members with
  | nil => cases hmem
  | cons entry entries ih =>
      intro h
      obtain ⟨taken, htaken, h⟩ := bind_eq_ok_iff.mp h
      obtain ⟨more, hmore, -⟩ := bind_eq_ok_iff.mp h
      rcases List.mem_cons.mp hmem with rfl | hmem
      · obtain ⟨fault, hfault, -⟩ := Setting.takeEntry_eq_error hvalue
        simp [hfault] at htaken
      · exact ih hmem more hmore

/-- Where a dictionary holds something for every setting, settings are extracted from it
exactly if each of them is what is spelled under its name. -/
theorem extract_eq_ok_iff
    (hheld : ∀ setting : Setting, ∃ supply, dictionary.get? setting.name = some supply) :
    extract dictionary = .ok settings ↔
      ∀ setting : Setting, ∃ supply, dictionary.get? setting.name = some supply ∧
        setting.Spells supply.found (setting.get settings) := by
  unfold extract
  simp only [Setting.spells_iff]
  cases hentries : takeEntries dictionary.entries with
  | error fault =>
      obtain ⟨setting, supply, hmem, hvalue, -⟩ := exists_of_takeEntries_eq_error hentries
      constructor
      · rintro ⟨⟩
      · intro h
        obtain ⟨other, hother, hspelled⟩ := h setting
        rw [Dictionary.get?_eq_some_iff.mpr hmem] at hother
        obtain rfl := Option.some.inj hother
        simp [hvalue] at hspelled
  | ok members =>
      have hget : ∀ setting : Setting, ∀ supply, dictionary.get? setting.name = some supply →
          setting.value? supply.found = some (setting.get (gather members)) := by
        intro setting supply hsupply
        rw [Setting.get_gather, findSome?_of_takeEntries hentries setting,
          show dictionary.entries.lookup setting.name = some supply from hsupply, Option.bind_some]
        cases hvalue : setting.value? supply.found with
        | some value => rfl
        | none =>
            exact absurd hentries
              (takeEntries_ne_ok (Dictionary.get?_eq_some_iff.mp hsupply) hvalue members)
      constructor
      · intro h setting
        obtain rfl : gather members = settings := Except.ok.inj h
        obtain ⟨supply, hsupply⟩ := hheld setting
        exact ⟨supply, hsupply, hget setting supply hsupply⟩
      · intro h
        refine congrArg Except.ok (Setting.settings_ext fun setting => ?_)
        obtain ⟨supply, hsupply, hspelled⟩ := h setting
        exact Option.some.inj ((hget setting supply hsupply).symm.trans hspelled)

end Taking

/-- The table of the settings file, if it is well formed; without a file there is nothing in
it. -/
def fileTable? (file : Option String) : Option Toml.Table :=
  match file with
  | some text => Toml.Table.ofText? text
  | none => some []

/-- All layers, each laid over those below it. -/
def Dictionary.layered (table : Toml.Table) (environment : List (String × String))
    (overrides : Overrides) : Dictionary :=
  (((ofMembers .defaults ({} : Settings).members).merge (ofTable table)).merge
    (ofLayer .environment (ofEnvironment environment))).merge
      (ofMembers .overrides overrides.members)

theorem Dictionary.ofSources?_eq (file : Option String) (environment : List (String × String))
    (overrides : Overrides) :
    ofSources? file environment overrides =
      (fileTable? file).map fun table => layered table environment overrides := by
  unfold ofSources? fileTable?
  cases file with
  | none => rfl
  | some text => cases hparsed : Toml.Table.ofText? text <;> simp [hparsed, layered]

end Settings

namespace Setting

variable {setting : Setting} {environment : List (String × String)}
  {held : Setting → Option String} {overrides : Overrides} {table : Toml.Table}

theorem lookup_overrides (overrides : Overrides) (setting : Setting) :
    (overrides.members.map fun member => (member.name, Found.ofMember member)).lookup
        setting.name = (setting.override overrides).map setting.found := by
  rcases overrides with ⟨capacity, generatedPackage, outDir⟩
  cases setting <;> cases capacity <;> cases generatedPackage <;> cases outDir <;> rfl

theorem lookup_defaults (setting : Setting) :
    ((({} : Settings).members).map fun member => (member.name, Found.ofMember member)).lookup
        setting.name = some (setting.found (setting.get {})) := by
  cases setting <;> rfl

/-- What lies on top under the name of a setting. -/
theorem get?_layered (hholds : Settings.Holds environment held) :
    (Dictionary.layered table environment overrides).get? setting.name =
      ((setting.override overrides).map fun value =>
          { layer := .overrides, found := setting.found value }).or
        (((held setting).map fun text =>
            { layer := .environment, found := .ofVariable text }).or
          (((table.lookup setting.name).map fun value =>
              { layer := .file, found := .ofToml value }).or
            (some { layer := .defaults, found := setting.found (setting.get {}) }))) := by
  simp only [Dictionary.layered, Dictionary.get?_merge, Dictionary.ofMembers, Dictionary.ofTable,
    Dictionary.get?_ofLayer, lookup_overrides, lookup_defaults, hholds.lookup_ofEnvironment,
    Disk.lookup_map_snd, Option.map_map, Option.map_some]
  rfl

theorem exists_get?_layered (hholds : Settings.Holds environment held) (setting : Setting) :
    ∃ supply, (Dictionary.layered table environment overrides).get? setting.name =
      some supply := by
  rw [get?_layered hholds]
  cases setting.override overrides <;> cases held setting <;> cases table.lookup setting.name <;>
    exact ⟨_, rfl⟩

/-- The highest layer that supplies a setting is the one that lies on top. -/
theorem gives_supplied_iff (hholds : Settings.Holds environment held) {value : setting.Value} :
    (setting.supplied overrides held table).Gives value ↔
      ∃ supply, (Dictionary.layered table environment overrides).get? setting.name =
        some supply ∧ setting.Spells supply.found value := by
  have hown : ∀ given : setting.Value,
      setting.Spells (setting.found given) value ↔ given = value := by
    intro given
    rw [spells_iff, value?_found, Option.some.injEq]
  rw [get?_layered hholds]
  unfold supplied
  cases setting.override overrides with
  | some given => simp [Supply.Gives, hown]
  | none =>
      cases held setting with
      | some text => simp [Supply.Gives]
      | none => cases table.lookup setting.name <;> simp [Supply.Gives, hown]

/-- What is none of a setting's values comes from the settings file or the environment. -/
theorem layer_of_value?_eq_none (hholds : Settings.Holds environment held)
    {supply : Settings.Supply}
    (hsupply : (Dictionary.layered table environment overrides).get? setting.name = some supply)
    (hvalue : setting.value? supply.found = none) :
    supply.layer = .file ∨ supply.layer = .environment := by
  rw [get?_layered hholds] at hsupply
  cases hoverride : setting.override overrides with
  | some given =>
      obtain rfl : _ = supply := by simpa [hoverride] using hsupply
      simp [value?_found] at hvalue
  | none =>
      cases hheld : held setting with
      | some text =>
          obtain rfl : _ = supply := by simpa [hoverride, hheld] using hsupply
          exact Or.inr rfl
      | none =>
          cases hentry : table.lookup setting.name with
          | some entry =>
              obtain rfl : _ = supply := by simpa [hoverride, hheld, hentry] using hsupply
              exact Or.inl rfl
          | none =>
              obtain rfl : _ = supply := by simpa [hoverride, hheld, hentry] using hsupply
              simp [value?_found] at hvalue

end Setting

namespace Settings

section Resolving

variable {disk : Disk} {directory : Location} {path file : Option String}
  {environment : List (String × String)} {held : Setting → Option String}
  {overrides : Overrides}

theorem resolve_eq_ok_iff (hholds : Holds environment held) {settings : Settings} :
    resolve file environment overrides = .ok settings ↔
      ∃ table, fileTable? file = some table ∧
        ∀ setting : Setting,
          (setting.supplied overrides held table).Gives (setting.get settings) := by
  unfold resolve
  rw [Dictionary.ofSources?_eq]
  cases fileTable? file with
  | none => simp
  | some table =>
      simp only [Option.map_some, extract_eq_ok_iff (Setting.exists_get?_layered hholds),
        Option.some.injEq, exists_eq_left']
      exact forall_congr' fun setting => (Setting.gives_supplied_iff hholds).symm

/-- Only the settings file and the environment can be at fault. -/
theorem layer?_of_resolve_eq_error (hholds : Holds environment held) {fault : Fault}
    (h : resolve file environment overrides = .error fault) :
    fault = .grammar ∨ fault.layer? = some .file ∨ fault.layer? = some .environment := by
  unfold resolve at h
  rw [Dictionary.ofSources?_eq] at h
  cases htable : fileTable? file with
  | none =>
      rw [htable] at h
      exact Or.inl (Except.error.inj h).symm
  | some table =>
      rw [htable, Option.map_some] at h
      cases hentries : takeEntries (Dictionary.layered table environment overrides).entries with
      | ok members =>
          simp only [extract, hentries] at h
          cases h
      | error refused =>
          simp only [extract, hentries] at h
          obtain rfl : refused = fault := Except.error.inj h
          obtain ⟨setting, supply, hmem, hvalue, hlayer⟩ :=
            exists_of_takeEntries_eq_error hentries
          rw [hlayer]
          refine Or.inr ((Setting.layer_of_value?_eq_none hholds
            (Dictionary.get?_eq_some_iff.mpr hmem) hvalue).imp ?_ ?_) <;>
            exact congrArg some

/-- Once the settings file is read, what is left is to resolve the layers. -/
theorem load_of_readFile (hfile : readFile disk directory path = .ok file) :
    load disk directory path environment overrides =
      match resolve file environment overrides with
      | .ok settings => (.ok settings, [settings.resolvedEvent])
      | .error fault => (.error (.settings fault), []) := by
  unfold load find
  rw [hfile]
  simp only [bind, Except.bind]
  cases resolve file environment overrides <;> rfl

/-- Settings are resolved one by one, each from the highest layer that supplies it: the
command line, the environment, the settings file, the defaults. Loading them fails exactly if
the file is not well formed or what is so supplied for some setting is none of its values; what
stands in lower layers neither does harm nor mends anything. A fault is the file's grammar or
names the file or the environment. What was found is logged. -/
theorem load_resolves_by_precedence (hfile : readFile disk directory path = .ok file)
    (hholds : Holds environment held) :
    let result := (load disk directory path environment overrides).1
    let log := (load disk directory path environment overrides).2
    (∀ settings : Settings, result = .ok settings ↔
      ∃ table, fileTable? file = some table ∧
        ∀ setting : Setting,
          (setting.supplied overrides held table).Gives (setting.get settings)) ∧
    ((∃ fault, result = .error (.settings fault)) ↔
      fileTable? file = none ∨
        ∃ table, fileTable? file = some table ∧
          ∃ setting : Setting, ∀ value,
            ¬(setting.supplied overrides held table).Gives value) ∧
    (∀ failure, result = .error failure → ∃ fault, failure = .settings fault ∧
      (fault = .grammar ∨ fault.layer? = some .file ∨ fault.layer? = some .environment)) ∧
    ∀ settings : Settings, result = .ok settings → log = [settings.resolvedEvent] := by
  intro result log
  have hok : ∀ settings : Settings, resolve file environment overrides = .ok settings ↔
      ∃ table, fileTable? file = some table ∧
        ∀ setting : Setting,
          (setting.supplied overrides held table).Gives (setting.get settings) :=
    fun settings => resolve_eq_ok_iff hholds
  have hfails : (¬∃ settings, resolve file environment overrides = .ok settings) ↔
      fileTable? file = none ∨
        ∃ table, fileTable? file = some table ∧
          ∃ setting : Setting, ∀ value,
            ¬(setting.supplied overrides held table).Gives value := by
    simp only [hok]
    cases fileTable? file with
    | none => simp
    | some table =>
        simp only [Option.some.injEq, exists_eq_left', reduceCtorEq, false_or]
        rw [Setting.exists_settings_iff]
        simp only [Classical.not_forall, not_exists]
  unfold result log
  rw [load_of_readFile hfile]
  cases hresolve : resolve file environment overrides with
  | ok settings =>
      refine ⟨?_, ?_, ?_, ?_⟩
      · intro other
        rw [← hok, hresolve]
        simp
      · rw [← hfails, hresolve]
        simp
      · intro failure hfailure
        cases hfailure
      · rintro other ⟨⟩
        rfl
  | error fault =>
      refine ⟨?_, ?_, ?_, ?_⟩
      · intro other
        rw [← hok, hresolve]
        simp
      · rw [← hfails, hresolve]
        simp
      · rintro failure ⟨⟩
        exact ⟨fault, rfl, layer?_of_resolve_eq_error hholds hresolve⟩
      · intro other hother
        cases hother

end Resolving

/-- The capacity in the file is none, but the environment replaces it; the directory in the
environment is none either, which does no harm as long as the command line replaces it. -/
theorem load_resolves_by_precedence_of_replaced_values :
    let text := "rows_per_routine = 0\nout_dir = \"files\"\ndefault_module_file = \"Other.kt\""
    let disk := Disk.empty.putFile ["koin-codegen.toml"] text.toUTF8
    let held : Setting → Option String := fun
      | .capacity => some "20"
      | .outDir => some "[sources]"
      | _ => none
    let environment := [("HOME", "/home"), ("KOIN_CODEGEN_OUT_DIR", "[sources]"),
      ("KOIN_CODEGEN_ROWS_PER_ROUTINE", "20")]
    readFile disk [] none = .ok (some text) ∧
      Holds environment held ∧
      (load disk [] none environment { outDir := some "built" }).1 =
        .ok { capacity := ⟨20, by decide, by decide⟩, outDir := "built",
              defaultFile := "Other.kt" } ∧
      ∃ fault, (load disk [] none environment {}).1 = .error (.settings fault) := by
  intro text disk held environment
  have hfile : readFile disk [] none = .ok (some text) := eq_ok_of_toOption (by decide +kernel)
  have hparsed : ((fileTable? (some text)).map fun table =>
      table.map fun item => (item.1, Found.ofToml item.2)) =
      some [("rows_per_routine", .signed 0), ("out_dir", .text "files"),
        ("default_module_file", .text "Other.kt")] := by decide +kernel
  obtain ⟨table, htable, hfound⟩ := Option.map_eq_some_iff.mp hparsed
  have hrows : Setting.capacity.variableName = "KOIN_CODEGEN_ROWS_PER_ROUTINE" := by decide +kernel
  have hpackage : Setting.generatedPackage.variableName = "KOIN_CODEGEN_GENERATED_PACKAGE" := by
    decide +kernel
  have houtDir : Setting.outDir.variableName = "KOIN_CODEGEN_OUT_DIR" := by decide +kernel
  have hdefault : Setting.defaultFile.variableName = "KOIN_CODEGEN_DEFAULT_MODULE_FILE" := by
    decide +kernel
  have hholds : Holds environment held := by
    refine ⟨?_, ?_⟩
    · intro setting text
      cases setting <;>
        simp [hrows, hpackage, houtDir, hdefault, environment, held, eq_comm]
    · have hhome : nameParts? "HOME" = none := by decide +kernel
      intro entry hentry setting hname
      simp only [environment, List.mem_cons, List.not_mem_nil, or_false] at hentry
      rcases hentry with rfl | rfl | rfl
      · simp [hhome] at hname
      · rw [← houtDir, Setting.nameParts?_variableName] at hname
        rw [← Setting.name_injective (Option.some.inj hname), houtDir]
      · rw [← hrows, Setting.nameParts?_variableName] at hname
        rw [← Setting.name_injective (Option.some.inj hname), hrows]
  have hstands : ∀ setting : Setting,
      (table.lookup setting.name).map Found.ofToml = List.lookup setting.name
        [("rows_per_routine", .signed 0), ("out_dir", .text "files"),
          ("default_module_file", .text "Other.kt")] := by
    intro setting
    rw [← Disk.lookup_map_snd, hfound]
  refine ⟨hfile, hholds, ?_, ?_⟩
  · refine ((load_resolves_by_precedence hfile hholds).1 _).mpr ⟨table, htable, ?_⟩
    intro setting
    have hstand := hstands setting
    cases setting with
    | capacity => exact Or.inl (by decide +kernel)
    | generatedPackage =>
        have habsent : table.lookup Setting.generatedPackage.name = none :=
          Option.map_eq_none_iff.mp (hstand.trans rfl)
        rw [Setting.supplied_of_lower rfl rfl, habsent]
        rfl
    | outDir => rfl
    | defaultFile =>
        obtain ⟨value, hvalue, htext⟩ := Option.map_eq_some_iff.mp (hstand.trans rfl)
        rw [Setting.supplied_of_lower rfl rfl, hvalue]
        exact htext
  · refine (load_resolves_by_precedence hfile hholds).2.1.mpr
      (Or.inr ⟨table, htable, .outDir, fun value hgives => ?_⟩)
    have hfound : Found.ofVariable "[sources]" = .sequence := by decide +kernel
    change Found.ofVariable "[sources]" = .text value at hgives
    rw [hfound] at hgives
    cases hgives

end Settings

end Wiring
