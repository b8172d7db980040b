import Wiring.Model

/-!
# Definitions grouped by scope

Of equal definitions only the first counts. What is left is split into the
definitions without a scope and one group per scope, all in the order of their
first occurrence. A routine counts a definition without a scope, or a whole
group, as one unit.
-/

namespace Wiring

/-- The definitions of one scope. -/
structure ScopeGroup where
  /-- The scope they share. -/
  scope : Scope
  /-- The definitions in order. -/
  members : List Definition
deriving DecidableEq, Repr, Inhabited

/-- What a routine counts as one. -/
inductive EmissionUnit where
  /-- A definition without a scope. -/
  | single (definition : Definition)
  /-- All definitions of a scope. -/
  | group (group : ScopeGroup)
deriving DecidableEq, Repr, Inhabited

/-- Definitions split by scope. -/
structure Grouping where
  /-- The definitions without a scope. -/
  unscoped : List Definition
  /-- The groups in the order in which their scopes come first. -/
  groups : List ScopeGroup
deriving DecidableEq, Repr, Inhabited

/-- The distinct definitions in the order of their first occurrence. -/
def distinctDefinitions (definitions : List Definition) : List Definition :=
  definitions.eraseDups

/-- Puts a definition behind the others of its scope. A scope that comes for the first
time gets a group behind all others. -/
def addMember (scope : Scope) (definition : Definition) : List ScopeGroup → List ScopeGroup
  | [] => [⟨scope, [definition]⟩]
  | group :: groups =>
      if group.scope = scope then
        { group with members := group.members ++ [definition] } :: groups
      else group :: addMember scope definition groups

namespace Grouping

/-- The grouping of no definitions. -/
def empty : Grouping := { unscoped := [], groups := [] }

/-- Puts one more definition where it belongs, behind all others that are there. -/
def add (grouping : Grouping) (definition : Definition) : Grouping :=
  match definition.scope with
  | none => { grouping with unscoped := grouping.unscoped ++ [definition] }
  | some scope => { grouping with groups := addMember scope definition grouping.groups }

/-- Groups the distinct definitions by scope. -/
def ofDefinitions (definitions : List Definition) : Grouping :=
  (distinctDefinitions definitions).foldl add empty

/-- The units of the grouping: the single definitions first, then the groups. -/
def units (grouping : Grouping) : List EmissionUnit :=
  grouping.unscoped.map .single ++ grouping.groups.map .group

/-- The number of units. -/
def unitCount (grouping : Grouping) : Nat :=
  grouping.unscoped.length + grouping.groups.length

end Grouping

end Wiring
