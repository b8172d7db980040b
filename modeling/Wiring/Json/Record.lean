import Wiring.Json.Decode

/-!
# Reading records

A record is written as an object, whose members may come in any order, or as an
array of its fields in order. A known member must not come twice; members of other
names are passed over or kept, as the record sees fit.
-/

namespace Wiring.Json

variable {α β γ : Type}

/-! ## Members -/

/-- A member on its way into a record. -/
structure Entry (β : Type) where
  name : Except Refusal String
  value : β
  /-- Where a refusal of the name is settled. -/
  nameSpot : Option Spot := none
  /-- Where a refusal of the value is settled. -/
  valueSpot : Option Spot := none

/-- A member of a node. -/
def Member.entry (member : Member Node) : Entry Node :=
  { name := member.name.decode
    value := member.value
    nameSpot := some { rest := member.behindName }
    valueSpot := some { rest := member.behind } }

/-- Reads members from left to right. A known member must not come twice; what a
member contributes, if anything, is up to `read`. -/
def collect (known : List String) (read : String → β → Except Refusal (Option γ)) :
    List String → List (Entry β) → Except Refusal (List γ)
  | _, [] => .ok []
  | seen, entry :: entries => do
      let name ← entry.name
      if name ∈ known ∧ name ∈ seen then
        settled entry.nameSpot (refuse (.repeatedMember name))
      let found ← settled entry.valueSpot (read name entry.value)
      let more ← collect known read (name :: seen) entries
      pure (found.toList ++ more)

/-- Reads an object and builds what its members contribute to. -/
def readRecord (known : List String) (read : String → Node → Except Refusal (Option γ))
    (build : List γ → Except Refusal α) (members : List (Member Node)) (tail : Tail) :
    Except Refusal α := do
  let found ← collect known read [] (members.map Member.entry)
  tail.endObject
  settledAt tail.rest (build found)

/-- The contribution of a member that must be there. -/
def required (name : String) (pick : γ → Option α) (found : List γ) : Except Refusal α :=
  match found.findSome? pick with
  | some value => .ok value
  | none => refuse (.missingMember name)

/-- The contribution of a member that may be left out. -/
def optional (default : α) (pick : γ → Option α) (found : List γ) : α :=
  (found.findSome? pick).getD default

/-! ## Elements -/

/-- The elements of an array that are still to be read. -/
structure Elements where
  /-- The elements. -/
  items : List (Item Node)
  /-- What follows them. -/
  tail : Tail
  /-- Where a look for the end of the array comes to a stop. -/
  stop : List Char := []

namespace Elements

/-- All elements of an array. -/
def ofArray (items : List (Item Node)) (tail : Tail) : Elements := { items, tail }

/-- Reads the next element, if there is one. -/
def next (read : Node → Except Refusal α) (e : Elements) :
    Except Refusal (Option α × Elements) :=
  match e.items with
  | [] => do
      e.tail.endArray
      pure (none, { e with stop := e.tail.rest })
  | item :: items => do
      let value ← settledAt item.behind (read item.value)
      pure (some value, { e with items, stop := item.behind })

/-- Reads the next element, which has a default. -/
def nextD (default : α) (read : Node → Except Refusal α) (e : Elements) :
    Except Refusal (α × Elements) := do
  let (value, e) ← e.next read
  pure (value.getD default, e)

/-- Reads the next element, without which the array has the wrong length. -/
def nextOf (position : Nat) (expected : Expected) (read : Node → Except Refusal α)
    (e : Elements) : Except Refusal (α × Elements) := do
  match ← e.next read with
  | (some value, e) => pure (value, e)
  | (none, e) => refuseAt (.wrongLength position expected) e.stop

/-- Refuses further elements. -/
def close (e : Elements) : Except Refusal Unit :=
  match e.items with
  | [] => e.tail.closeArray
  | _ :: _ => refuseNext .trailingText e.stop

end Elements

end Wiring.Json
