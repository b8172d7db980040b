import Wiring.Grouping
import Wiring.Report
import Wiring.Statement

/-!
# Drafts of generated text

A draft is what a generator has to say about a unit: the texts to append in
order, with log events in between, and, if it could not be completed, the
definition that stopped it. Drafts are put together one behind the other; behind
a draft that stopped nothing is written any more.
-/

namespace Wiring

/-- One step of a draft. -/
inductive Step where
  | append (text : String)
  | log (event : Event)
deriving DecidableEq, Repr, Inhabited

/-- The text of a step that appends one. -/
def Step.text? : Step → Option String
  | append text => some text
  | log _ => none

/-- A definition that has no statement. -/
structure Malformed where
  /-- The label of the definition. -/
  definition : String
  /-- What is wrong with it. -/
  defect : Defect
deriving DecidableEq, Repr, Inhabited

/-- Texts to append in order, and what stopped them. -/
structure Draft where
  /-- The steps up to the end or the stop. -/
  steps : List Step
  /-- The definition that stopped the draft. -/
  stop : Option Malformed := none
deriving DecidableEq, Repr, Inhabited

namespace Draft

/-- The draft that says nothing. -/
def empty : Draft := { steps := [] }

/-- A draft of one text. -/
def text (text : String) : Draft := { steps := [.append text] }

/-- A draft of one event. -/
def log (event : Event) : Draft := { steps := [.log event] }

/-- One draft behind another, which is dropped where the first one stopped. -/
def andThen (first second : Draft) : Draft :=
  match first.stop with
  | some _ => first
  | none => { steps := first.steps ++ second.steps, stop := second.stop }

instance : Append Draft := ⟨andThen⟩

/-- Drafts one behind the other. -/
def concat (drafts : List Draft) : Draft := drafts.foldr andThen empty

/-- The texts in order. -/
def pieces (draft : Draft) : List String := draft.steps.filterMap Step.text?

/-- All texts of the draft as one. -/
def fullText (draft : Draft) : String := String.join draft.pieces

/-- The statement of a definition. -/
def ofDefinition (place : Place) (definition : Definition) : Draft :=
  match definition.statement place with
  | .ok statement => text statement
  | .error defect => { steps := [], stop := some ⟨definition.label, defect⟩ }

/-- The statement that takes modules in, unless there are none. -/
def ofIncludes (references : List ModuleRef) : Draft :=
  if references.isEmpty then empty else text (includesStatement references)

/-- The block of a scope. -/
def ofScope (place : Place) (scope : Scope) (members : List Definition) : Draft :=
  text scope.opening ++ concat (members.map (ofDefinition place)) ++
    text Fragment.scopeClosing

/-- The statements of a unit of a routine. -/
def ofUnit (place : Place) : EmissionUnit → Draft
  | .single definition => ofDefinition place definition
  | .group group => ofScope place group.scope group.members

end Draft

end Wiring
