import Wiring.Settings.Basic

/-!
# Units split over routines

The units of a module are assigned to routines one by one, each to the routine whose
number is the quotient of its position by the capacity. The number of calls is computed
from the number of units; it exceeds the number of routines by one exactly where the
capacity divides the number of units.
-/

namespace Wiring

variable {α : Type}

/-- The units of one routine. -/
structure Routine (α : Type) where
  /-- The number of the routine, with which its name ends. -/
  index : Nat
  /-- The units in order. -/
  units : List α
deriving DecidableEq, Repr

/-- Gives a unit to the routine with a number: to the last routine if that is its number,
and to a new one otherwise. -/
def addUnit (index : Nat) (unit : α) (routines : List (Routine α)) : List (Routine α) :=
  match routines.getLast? with
  | some last =>
      if last.index = index then
        routines.dropLast ++ [{ last with units := last.units ++ [unit] }]
      else routines ++ [⟨index, [unit]⟩]
  | none => [⟨index, [unit]⟩]

/-- Units assigned to routines. -/
structure RoutinePlan (α : Type) where
  /-- How many units a routine may hold. -/
  capacity : Capacity
  /-- The number of units. -/
  unitCount : Nat
  /-- The routines in ascending order. -/
  routines : List (Routine α)
deriving DecidableEq, Repr

namespace RoutinePlan

/-- The plan of no units. -/
def empty (capacity : Capacity) : RoutinePlan α := { capacity, unitCount := 0, routines := [] }

/-- Assigns one more unit, which comes behind all others. -/
def add (plan : RoutinePlan α) (unit : α) : RoutinePlan α :=
  { plan with
    unitCount := plan.unitCount + 1
    routines := addUnit (plan.unitCount / plan.capacity.rows) unit plan.routines }

/-- Assigns every unit to a routine, in order. -/
def ofUnits (capacity : Capacity) (units : List α) : RoutinePlan α :=
  units.foldl add (empty capacity)

/-- The number of calls that the builder block makes. -/
def callCount (plan : RoutinePlan α) : Nat := plan.unitCount / plan.capacity.rows + 1

/-- Every unit with the number of its routine, in order. -/
def assignments (plan : RoutinePlan α) : List (Nat × α) :=
  plan.routines.flatMap fun routine => routine.units.map fun unit => (routine.index, unit)

end RoutinePlan

end Wiring
