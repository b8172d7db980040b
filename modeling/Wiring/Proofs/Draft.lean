import Mathlib.Data.List.Basic
import Wiring.Draft
import Wiring.SourceUnit

/-!
# Texts of complete drafts

A draft is complete when nothing stopped it. The texts of complete drafts put one
behind the other are their texts in order, so the texts of every block are known
from the statements of its definitions.

A source unit is made from a declared module, or from sources whose definitions share the
default module. What holds of both is stated of their common origin.
-/

namespace Wiring

/-- The statement of a definition, if it has one. -/
def Definition.statement? (place : Place) (definition : Definition) : Option String :=
  (definition.statement place).toOption

/-- What a statement is made of. -/
theorem Definition.exists_target_of_statement? {place : Place} {definition : Definition}
    {text : String} (h : definition.statement? place = some text) :
    ∃ target, definition.provider.target definition.package place = .ok target ∧
      text = Fragment.newLine ++ definition.keyword.name ++ "(" ++ definition.options ++
        ") \x7b " ++ definition.receiver ++ target ++ "(" ++ definition.arguments ++
        ") \x7d" ++ definition.bindingText := by
  unfold statement? statement at h
  split at h
  · cases h
  · split at h
    · cases h
    next target htarget => exact ⟨target, htarget, (Option.some.inj h).symm⟩

/-- Each of the definitions has a statement. -/
abbrev AllStated (place : Place) (definitions : List Definition) : Prop :=
  ∀ definition ∈ definitions, (definition.statement? place).isSome

namespace Draft

@[simp] theorem stop_empty : empty.stop = none := rfl

@[simp] theorem stop_text (content : String) : (text content).stop = none := rfl

@[simp] theorem stop_log (event : Event) : (log event).stop = none := rfl

@[simp] theorem pieces_text (content : String) : (text content).pieces = [content] := rfl

/-! ## One draft behind another -/

/-- Behind a complete draft the second one follows with all it has to say. -/
theorem append_of_stop_eq_none {first : Draft} (hfirst : first.stop = none) (second : Draft) :
    first ++ second = { steps := first.steps ++ second.steps, stop := second.stop } := by
  change first.andThen second = _
  rw [andThen, hfirst]

@[simp] theorem stop_append_eq_none {first second : Draft} :
    (first ++ second).stop = none ↔ first.stop = none ∧ second.stop = none := by
  cases hfirst : first.stop with
  | none => simp [append_of_stop_eq_none hfirst]
  | some malformed =>
      have happend : first ++ second = first := by
        change first.andThen second = _
        rw [andThen, hfirst]
      simp [happend, hfirst]

@[simp] theorem pieces_append {first second : Draft} (hfirst : first.stop = none) :
    (first ++ second).pieces = first.pieces ++ second.pieces := by
  rw [append_of_stop_eq_none hfirst]
  exact List.filterMap_append

theorem append_assoc (first second third : Draft) :
    first ++ second ++ third = first ++ (second ++ third) := by
  change (first.andThen second).andThen third = first.andThen (second.andThen third)
  unfold andThen
  cases hfirst : first.stop with
  | some malformed => simp only [hfirst]
  | none => cases hsecond : second.stop <;> simp [hsecond]

@[simp] theorem concat_nil : concat [] = empty := rfl

theorem concat_cons (draft : Draft) (drafts : List Draft) :
    concat (draft :: drafts) = draft ++ concat drafts := rfl

variable {α : Type} {f : α → Draft} {xs : List α}

@[simp] theorem stop_concat_map_eq_none :
    (concat (xs.map f)).stop = none ↔ ∀ x ∈ xs, (f x).stop = none := by
  induction xs with
  | nil => simp
  | cons x xs ih =>
      rw [List.map_cons, concat_cons, stop_append_eq_none, ih, List.forall_mem_cons]

/-- The texts of complete drafts one behind the other are their texts in order. -/
theorem pieces_concat_map (hcomplete : ∀ x ∈ xs, (f x).stop = none) :
    (concat (xs.map f)).pieces = xs.flatMap fun x => (f x).pieces := by
  induction xs with
  | nil => rfl
  | cons x xs ih =>
      obtain ⟨hhead, htail⟩ := List.forall_mem_cons.mp hcomplete
      rw [List.map_cons, concat_cons, pieces_append hhead, ih htail, List.flatMap_cons]

/-! ## Drafts of statements and blocks -/

variable {place : Place}

theorem stop_ofDefinition_eq_none {definition : Definition} :
    (ofDefinition place definition).stop = none ↔ (definition.statement? place).isSome := by
  unfold ofDefinition Definition.statement?
  cases definition.statement place <;> simp [Except.toOption]

@[simp] theorem pieces_ofDefinition (definition : Definition) :
    (ofDefinition place definition).pieces = (definition.statement? place).toList := by
  unfold ofDefinition Definition.statement?
  cases definition.statement place <;> rfl

@[simp] theorem stop_ofIncludes (references : List ModuleRef) :
    (ofIncludes references).stop = none := by
  unfold ofIncludes
  split <;> rfl

theorem stop_ofScope_eq_none {scope : Scope} {members : List Definition} :
    (ofScope place scope members).stop = none ↔ AllStated place members := by
  simp [ofScope, stop_ofDefinition_eq_none]

theorem pieces_ofScope {scope : Scope} {members : List Definition}
    (hmembers : AllStated place members) :
    (ofScope place scope members).pieces =
      scope.opening :: members.filterMap (Definition.statement? place) ++
        [Fragment.scopeClosing] := by
  have hcomplete : ∀ definition ∈ members, (ofDefinition place definition).stop = none := by
    intro definition hmem
    exact stop_ofDefinition_eq_none.mpr (hmembers definition hmem)
  have hopened : (text scope.opening ++ concat (members.map (ofDefinition place))).stop = none :=
    stop_append_eq_none.mpr ⟨rfl, stop_concat_map_eq_none.mpr hcomplete⟩
  unfold ofScope
  rw [pieces_append hopened, pieces_append rfl, pieces_concat_map hcomplete]
  simp [List.filterMap_eq_flatMap_toList]

end Draft

namespace EmissionUnit

/-- The definitions of a unit in order. -/
def definitions : EmissionUnit → List Definition
  | single definition => [definition]
  | group block => block.members

/-- The texts that register a unit: a statement, or the block of a scope. -/
def texts (place : Place) : EmissionUnit → List String
  | single definition => (definition.statement? place).toList
  | group block =>
      block.scope.opening :: block.members.filterMap (Definition.statement? place) ++
        [Fragment.scopeClosing]

variable {place : Place}

/-- A unit can be written exactly if each of its definitions has a statement. -/
theorem stop_ofUnit_eq_none {unit : EmissionUnit} :
    (Draft.ofUnit place unit).stop = none ↔ AllStated place unit.definitions := by
  cases unit with
  | single definition =>
      simp [Draft.ofUnit, definitions, AllStated, Draft.stop_ofDefinition_eq_none]
  | group block => exact Draft.stop_ofScope_eq_none

theorem pieces_ofUnit {unit : EmissionUnit} (hunit : AllStated place unit.definitions) :
    (Draft.ofUnit place unit).pieces = unit.texts place := by
  cases unit with
  | single definition => exact Draft.pieces_ofDefinition definition
  | group block => exact Draft.pieces_ofScope hunit

/-- The texts of several units are those of each of them in order. -/
theorem pieces_concat_ofUnit {units : List EmissionUnit}
    (hunits : ∀ unit ∈ units, AllStated place unit.definitions) :
    (Draft.concat (units.map (.ofUnit place))).pieces = units.flatMap (texts place) := by
  have hcomplete : ∀ unit ∈ units, (Draft.ofUnit place unit).stop = none := by
    intro unit hmem
    exact stop_ofUnit_eq_none.mpr (hunits unit hmem)
  rw [Draft.pieces_concat_map hcomplete]
  apply List.flatMap_congr
  intro unit hmem
  exact pieces_ofUnit (hunits unit hmem)

end EmissionUnit

/-! ## Origins of source units -/

/-- What a source unit is made from. -/
inductive Origin where
  | declared (module : Module)
  /-- Sources that share the default module. -/
  | pooled (sources : List Module)
deriving DecidableEq, Repr, Inhabited

namespace Origin

/-- The definitions to be registered, in the order of their declaration. -/
def definitions : Origin → List Definition
  | declared module => module.definitions
  | pooled sources => pooledDefinitions sources

/-- The name under which failures of the unit are reported. -/
def name : Origin → String
  | declared module => module.path
  | pooled _ => defaultUnitName

/-- Where the statements of the unit stand. -/
def place : Origin → Place
  | declared _ => .routine Fragment.instanceName
  | pooled _ => .defaultModule

/-- The source unit. -/
def sourceUnit (settings : Settings) : Origin → SourceUnit
  | declared module => module.sourceUnit settings
  | pooled sources => defaultUnit sources settings

theorem name_sourceUnit (origin : Origin) (settings : Settings) :
    (origin.sourceUnit settings).name = origin.name := by
  cases origin <;> rfl

end Origin

end Wiring
