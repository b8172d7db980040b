import Wiring.Json.Record

/-!
# Reading unions

A union is written as the name of a variant, or as an object with one member that is
named for the variant; or else the object names its variant in a member of its own,
and the other members are kept until that is known. Faults in kept members show only
then, so that their spot is left to what holds the union.
-/

namespace Wiring.Json

variable {α β γ : Type}

/-! ## Variants by name -/

/-- The variant of a name. -/
def variantOf (variants : List (String × α)) (name : String) : Except Refusal α :=
  match variants.lookup name with
  | some variant => .ok variant
  | none => refuse (.unknownVariant name (variants.map (·.1)))

/-- The end of an object behind the value of a variant; no further member may follow. -/
def endVariant (behind : List Char) (more : List (Member Node)) (tail : Tail) :
    Except Refusal Unit :=
  match more, tail with
  | [], .closed _ => .ok ()
  | [], .cutOff => refuseEnd .endInObject
  | _, _ => refuseAt .expectedValue behind

/-- Refuses an object without a member where a variant is due. The name of a variant is the
name of a member like any other: where the object is cut off, or goes on with anything but a
text, that is refused as in a record. -/
def refuseNoVariant : Tail → Except Refusal α
  | .closed rest => refuseAt .expectedValue rest
  | .badName rest => refuseNext .nameNotText rest
  | _ => refuseEnd .endInObject

/-- Where a value starts that is neither a text nor an object. -/
def Node.start : Node → List Char
  | null extent | flag _ extent | number _ extent => extent.start
  | brokenNumber extent | brokenNull extent | brokenFlag extent => extent.start
  | array start _ _ | object start _ _ => start
  | text _ | missing _ _ => []

/-- Reads a union that is written as the name of a variant, or as an object whose
only member is named for the variant and holds its value. -/
def readUnion (variants : List (String × α)) (bare : α → Except Refusal β)
    (withValue : α → Node → Except Refusal β) : Node → Except Refusal β
  | .text text => do
      let name ← text.decode
      bare (← settledAt text.rest (variantOf variants name))
  | .object _ [] tail => refuseNoVariant tail
  | .object _ (member :: more) tail => do
      let name ← member.name.decode
      let variant ← settledAt member.name.rest (variantOf variants name)
      let value ← withValue variant member.value
      endVariant member.behind more tail
      pure value
  | .missing fault rest => refuseNext fault rest
  | node => refuseNext .expectedValue node.start

/-! ## Kept values -/

namespace Value

/-- Refuses a kept value that is not of the expected type. -/
def mismatch (expected : Expected) (value : Value) : Except Refusal α :=
  refuse (.unexpectedType value.found expected)

/-- Reads a kept text. -/
def asText : Value → Except Refusal String
  | text value => .ok value
  | value => value.mismatch .text

/-- Reads a kept truth value. -/
def asFlag : Value → Except Refusal Bool
  | flag value => .ok value
  | value => value.mismatch .flag

/-- Reads a kept value that may be left out. -/
def asOptional (read : Value → Except Refusal α) : Value → Except Refusal (Option α)
  | null => .ok none
  | value => (read value).map some

/-- A kept member. -/
def entry (member : String × Value) : Entry Value :=
  { name := .ok member.1, value := member.2 }

/-- Reads the members of a kept object. -/
def readFields (known : List String) (read : String → Value → Except Refusal (Option γ))
    (members : List (String × Value)) : Except Refusal (List γ) :=
  collect known read [] (members.map entry)

/-- Checks that no more than `count` elements were kept. -/
def noMoreThan (count : Nat) (values : List Value) : Except Refusal Unit :=
  if values.length ≤ count then .ok ()
  else refuse (.wrongLength values.length (.elements count))

end Value

/-! ## Variants by a member -/

/-- A member of an object that names its variant in a member of its own. -/
inductive TaggedMember (α : Type) where
  /-- The name of the variant. -/
  | tag (variant : α)
  /-- Any other member. -/
  | field (name : String) (value : Value)

namespace TaggedMember

/-- The variant that a member names. -/
def variant? : TaggedMember α → Option α
  | tag variant => some variant
  | field .. => none

/-- The member, if it does not name the variant. -/
def field? : TaggedMember α → Option (String × Value)
  | tag _ => none
  | field name value => some (name, value)

end TaggedMember

/-- The name of the member that names the variant. -/
def tagName : String := "kind"

/-- The variant that members name, and the members that do not name it. -/
def splitTag (found : List (TaggedMember α)) : Except Refusal (α × List (String × Value)) := do
  let variant ← required tagName TaggedMember.variant? found
  pure (variant, found.filterMap TaggedMember.field?)

/-- How the fields of the variants of a union are read, from members or from
elements that were kept. -/
structure Variants (α β : Type) where
  /-- The name of the union. -/
  name : String
  /-- The variants by name. -/
  variants : List (String × α)
  /-- Reads the fields of a variant from members. -/
  ofMembers : α → List (String × Value) → Except Refusal β
  /-- Reads the fields of a variant from elements. -/
  ofElements : α → List Value → Except Refusal β

namespace Variants

/-- Reads the name of a variant. -/
def readTag (u : Variants α β) (node : Node) : Except Refusal α := do
  let name ← readText .variantName node
  settledAt node.rest (variantOf u.variants name)

/-- Reads a member of an object inside which `room` arrays and objects may be
opened. -/
def readMember (u : Variants α β) (room : Nat) (name : String) (node : Node) :
    Except Refusal (Option (TaggedMember α)) :=
  if name = tagName then (u.readTag node).map (some ∘ .tag)
  else (node.keep room).map (some ∘ .field name)

/-- Reads a union whose variant is named by a member of the object, or by the
first element of an array. The rest is kept until the variant is known. -/
def read (u : Variants α β) (room : Nat) : Node → Except Refusal β
  | .object _ members tail => do
      let (variant, fields) ←
        readRecord [tagName] (u.readMember (room - 1)) splitTag members tail
      u.ofMembers variant fields
  | .array _ items tail => do
      match ← (Elements.ofArray items tail).next u.readTag with
      | (none, rest) => refuseAt (.missingMember tagName) rest.stop
      | (some variant, rest) =>
          let values ← keepItems (room - 1) rest.items
          rest.tail.endArray
          u.ofElements variant values
  | node => node.mismatch (.taggedUnion u.name)

/-- The variant that a kept value names, by its name or by its number. -/
def variantOfValue (u : Variants α β) : Value → Except Refusal α
  | .text name => variantOf u.variants name
  | .number (.integer value) =>
      if value < 0 then refuse (.unexpectedType (.integer value) .variantName)
      else
        match u.variants[value.toNat]? with
        | some (_, variant) => .ok variant
        | none => refuse (.unexpectedValue (.integer value) (.variantIndex u.variants.length))
  | value => value.mismatch .variantName

/-- Reads a kept member. -/
def readKeptMember (u : Variants α β) (name : String) (value : Value) :
    Except Refusal (Option (TaggedMember α)) :=
  if name = tagName then (u.variantOfValue value).map (some ∘ .tag)
  else .ok (some (.field name value))

/-- Reads a union from the kept members of an object it shares with others. -/
def readKept (u : Variants α β) (members : List (String × Value)) : Except Refusal β := do
  let found ← Value.readFields [tagName] u.readKeptMember members
  let (variant, fields) ← splitTag found
  u.ofMembers variant fields

end Variants

end Wiring.Json
