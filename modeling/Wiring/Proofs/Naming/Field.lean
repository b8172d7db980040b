import Mathlib.Data.List.Basic
import Wiring.Proofs.Run.Watch

/-!
# Field names

A field name joins the package and the name of a module by the character that stands for
the separators of the package. So a field name can be cut in more than one way, and
modules of different paths may share it. Which modules do is known from their packages
and names: either the packages differ in separators only, or the name of one module
begins with what ends the package of the other.
-/

namespace Wiring

theorem exists_of_append_eq_append {first second rest rest' : String}
    (h : first ++ rest = second ++ rest') :
    (∃ middle, second = first ++ middle ∧ rest = middle ++ rest') ∨
      ∃ middle, first = second ++ middle ∧ rest' = middle ++ rest := by
  have hchars := congrArg String.toList h
  rw [String.toList_append, String.toList_append] at hchars
  simp only [← String.toList_inj, String.toList_append]
  rcases List.append_eq_append_iff.mp hchars with ⟨middle, hmiddle⟩ | ⟨middle, hmiddle⟩
  · exact .inl ⟨String.ofList middle, by simpa using hmiddle⟩
  · exact .inr ⟨String.ofList middle, by simpa using hmiddle⟩

theorem exists_of_append_underscore_eq {text first rest : String} (hrest : rest ≠ "")
    (h : text ++ "_" = first ++ rest) : ∃ front, rest = front ++ "_" ∧ text = first ++ front := by
  rcases exists_of_append_eq_append h with ⟨middle, hfirst, hunderscore⟩ | ⟨front, htext, hrest⟩
  · -- a text that is not empty takes up the whole underscore
    have hlength : 1 = (middle ++ rest).length := congrArg String.length hunderscore
    have hpositive : rest.length ≠ 0 := by simpa using hrest
    have hmiddle : middle = "" := by
      rw [String.length_append] at hlength
      rw [← String.length_eq_zero_iff]
      omega
    subst hmiddle
    exact ⟨"", by simpa using hunderscore.symm, by simpa using hfirst.symm⟩
  · exact ⟨front, hrest, htext⟩

namespace Module

variable {module other : Module}

/-- A package with an underscore for every separator. -/
def underscored (package : String) : String :=
  String.ofList (package.toList.map fun c => if c = '.' then '_' else c)

@[simp] theorem underscored_eq_empty {package : String} :
    underscored package = "" ↔ package = "" := by
  rw [← String.toList_inj, ← String.toList_inj, underscored, String.toList_ofList]
  exact List.map_eq_nil_iff

theorem fieldName_eq_named (module : Module) :
    module.fieldName = (named module.package module.name).fieldName := rfl

theorem fieldName_named (package name : String) :
    (named package name).fieldName =
      if package = "" then name else underscored package ++ "_" ++ name := by
  simp [fieldName, named, underscored]

theorem fieldName_named_append (package front rest : String) :
    (named package (front ++ rest)).fieldName = (named package front).fieldName ++ rest := by
  rw [fieldName_named, fieldName_named]
  split
  · rfl
  · rw [String.append_assoc, String.append_assoc, String.append_assoc]

/-- The name of the module begins with what ends the package of the other one. -/
def Absorbs (module other : Module) : Prop :=
  ∃ front, module.name = front ++ "_" ++ other.name ∧ other.package ≠ "" ∧
    underscored other.package = (named module.package front).fieldName

/-- The fields of the modules have the same name. -/
def SharesField (module other : Module) : Prop :=
  module.name = other.name ∧ underscored module.package = underscored other.package ∨
    module.Absorbs other ∨ other.Absorbs module

theorem Absorbs.fieldName_eq (habsorbs : module.Absorbs other) :
    module.fieldName = other.fieldName := by
  obtain ⟨front, hname, hpackage, hfront⟩ := habsorbs
  rw [fieldName_eq_named module, fieldName_eq_named other, hname, String.append_assoc,
    fieldName_named_append, ← hfront, fieldName_named other.package, if_neg hpackage,
    String.append_assoc]

theorem underscored_eq_of_fieldName_eq {package package' : String}
    (h : (named package "").fieldName = (named package' "").fieldName) :
    underscored package = underscored package' := by
  simp only [fieldName_named, String.append_empty] at h
  split at h <;> split at h <;> simp_all [String.append_eq_empty_iff]

theorem sharesField_of_append {middle : String}
    (hpackage : (named other.package "").fieldName = (named module.package "").fieldName ++ middle)
    (hname : module.name = middle ++ other.name) :
    module.name = other.name ∧ underscored module.package = underscored other.package ∨
      module.Absorbs other := by
  by_cases hmiddle : middle = ""
  · left
    subst hmiddle
    rw [String.append_empty] at hpackage
    rw [String.empty_append] at hname
    exact ⟨hname, (underscored_eq_of_fieldName_eq hpackage).symm⟩
  · right
    rw [fieldName_named other.package, String.append_empty] at hpackage
    split at hpackage
    next => exact absurd (String.append_eq_empty_iff.mp hpackage.symm).2 hmiddle
    next hother =>
      obtain ⟨front, rfl, hfront⟩ := exists_of_append_underscore_eq hmiddle hpackage
      refine ⟨front, hname, hother, ?_⟩
      rw [hfront, ← fieldName_named_append, String.empty_append]

/-- Which modules share a field name. -/
theorem fieldName_eq_iff : module.fieldName = other.fieldName ↔ module.SharesField other := by
  constructor
  · intro h
    have hcut : ∀ module : Module,
        module.fieldName = (named module.package "").fieldName ++ module.name := by
      intro module
      rw [← fieldName_named_append, String.empty_append, fieldName_eq_named]
    rw [hcut module, hcut other] at h
    rcases exists_of_append_eq_append h with ⟨middle, hpackage, hname⟩ | ⟨middle, hpackage, hname⟩
    · rcases sharesField_of_append hpackage hname with hsame | habsorbs
      · exact .inl hsame
      · exact .inr (.inl habsorbs)
    · rcases sharesField_of_append hpackage hname with hsame | habsorbs
      · exact .inl ⟨hsame.1.symm, hsame.2.symm⟩
      · exact .inr (.inr habsorbs)
  · rintro (⟨hname, hpackage⟩ | habsorbs | habsorbs)
    · have hempty : module.package = "" ↔ other.package = "" := by
        rw [← underscored_eq_empty, hpackage, underscored_eq_empty]
      rw [fieldName_eq_named module, fieldName_eq_named other]
      simp only [fieldName_named, hname, hpackage, hempty]
    · exact habsorbs.fieldName_eq
    · exact habsorbs.fieldName_eq.symm

theorem fileName_eq_iff : module.fileName = other.fileName ↔ module.SharesField other := by
  rw [fileName, fileName, String.append_left_inj, fieldName_eq_iff]

/-- A package without underscores can be read off again. -/
theorem map_underscored {package : String} (h : '_' ∉ package.toList) :
    (underscored package).toList.map (fun c => if c = '_' then '.' else c) = package.toList := by
  rw [underscored, String.toList_ofList, List.map_map]
  conv_rhs => rw [← List.map_id package.toList]
  apply List.map_congr_left
  intro c hc
  have hunderscore : c ≠ '_' := fun heq => h (heq ▸ hc)
  by_cases hseparator : c = '.' <;> simp [hseparator, hunderscore]

/-- Modules whose packages and names have no underscores share a field only if they have
the same path. -/
theorem SharesField.path_eq (hshares : module.SharesField other)
    (hmodule : '_' ∉ module.package.toList ∧ '_' ∉ module.name.toList)
    (hother : '_' ∉ other.package.toList ∧ '_' ∉ other.name.toList) : module.path = other.path := by
  have hnames : ∀ {first second : Module}, first.Absorbs second → '_' ∈ first.name.toList := by
    rintro first second ⟨front, hname, _⟩
    simp [hname]
  rcases hshares with ⟨hname, hpackage⟩ | habsorbs | habsorbs
  · have hpackages : module.package = other.package := by
      rw [← String.toList_inj, ← map_underscored hmodule.1, ← map_underscored hother.1, hpackage]
    rw [path, path, hname, hpackages]
  · exact absurd (hnames habsorbs) hmodule.2
  · exact absurd (hnames habsorbs) hother.2

end Module

/-! ## The modules of a run -/

/-- The units of a run are attempted under the file names of the modules and then the
default file. The modules have fields of different names, and files of different names,
exactly if no two of them share a field. Without underscores in packages and names it is
enough that their paths are different. -/
theorem SinkFactory.run_separates_modules_iff {φ σ : Type} (factory : SinkFactory φ σ)
    (metadata : Metadata) (settings : Settings) (start : φ) :
    let modules := metadata.modules
    let apart := modules.Pairwise fun module other => ¬module.SharesField other
    let files := (factory.run (metadata.jobs settings) start).outcomes.map Prod.fst
    files = modules.map Module.fileName ++ [settings.defaultFile] ∧
    ((modules.map Module.fieldName).Nodup ↔ apart) ∧
    ((modules.map Module.fileName).Nodup ↔ apart) ∧
    ((modules.map Module.path).Nodup →
      (∀ module ∈ modules, '_' ∉ module.package.toList ∧ '_' ∉ module.name.toList) →
        apart) := by
  intro modules apart files
  refine ⟨?_, ?_, ?_, ?_⟩
  · simp [files, modules, map_fst_outcomes, Metadata.jobs]
  · rw [List.Nodup, List.pairwise_map]
    simp only [ne_eq, Module.fieldName_eq_iff]
    rfl
  · rw [List.Nodup, List.pairwise_map]
    simp only [ne_eq, Module.fileName_eq_iff]
    rfl
  · intro hpaths hplain
    rw [List.Nodup, List.pairwise_map] at hpaths
    refine hpaths.imp_of_mem ?_
    intro module other hmodule hother hne hshares
    exact hne (hshares.path_eq (hplain module hmodule) (hplain other hother))

/-- Modules of a package and of a package below it. -/
theorem SinkFactory.run_separates_modules_of_packages :
    let metadata : Metadata :=
      { modules := [.named "com.app" "Data", .named "com.app.data" "Data", .named "" "Data"] }
    (metadata.modules.map Module.path).Nodup ∧
    (∀ module ∈ metadata.modules, '_' ∉ module.package.toList ∧ '_' ∉ module.name.toList) ∧
    (metadata.modules.map Module.fileName).Nodup := by
  intro metadata
  have hpaths : (metadata.modules.map Module.path).Nodup := by decide +kernel
  have hplain : ∀ module ∈ metadata.modules,
      '_' ∉ module.package.toList ∧ '_' ∉ module.name.toList := by
    decide +kernel
  obtain ⟨_, _, hfiles, hapart⟩ :=
    SinkFactory.run_separates_modules_iff UnitStore.factory metadata {} {}
  exact ⟨hpaths, hplain, hfiles.mpr (hapart hpaths hplain)⟩

/-- Two modules of different paths whose fields have one name. Both units are stored under
the same file name, and only the first one is found there. -/
theorem Module.fieldName_eq_of_different_paths :
    let first := (Module.named "a.b" "C").withVisibility .internal
    let second := Module.named "a_b" "C"
    let result := UnitStore.factory.run (({ modules := [first, second] } : Metadata).jobs {}) {}
    first.path ≠ second.path ∧ first.fieldName = second.fieldName ∧
    result.completed = ["a_b_CGen.kt", "a_b_CGen.kt", "KoinDefault.kt"] ∧
    (result.state.units.map Prod.snd).Nodup ∧
    result.state.find? second.fileName = some (first.sourceUnit {}).draft.fullText := by
  decide +kernel

end Wiring
