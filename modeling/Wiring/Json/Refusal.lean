import Wiring.Json.Fault
import Wiring.Text.Basic

/-!
# Refusals and where they lie

A reader that refuses a text gives the fault together with the spot where it
stands at that moment. Some faults show only when a value is complete; such a
refusal has no spot yet, and the array or object that holds the value settles it
where its own look for what follows comes to a stop. A refusal that nothing
settles is reported without a place.
-/

namespace Wiring.Json

variable {α : Type}

/-- A spot in a text. -/
structure Spot where
  /-- The characters of the text from the spot on, or from shortly before it. -/
  rest : List Char
  /-- How many bytes the spot lies behind the beginning of these characters. It
  may lie inside a character, and never lies behind the end of the text. -/
  ahead : Nat := 0
deriving DecidableEq, Repr, Inhabited

/-- Why a reader refuses a text, and where. -/
structure Refusal where
  /-- What is wrong. -/
  fault : Fault
  /-- Where that is reported, once this is settled. -/
  spot : Option Spot := none
deriving DecidableEq, Repr, Inhabited

namespace Refusal

/-- The refusal with a spot, unless it has one already. -/
def settle (spot : Option Spot) (refusal : Refusal) : Refusal :=
  { refusal with spot := refusal.spot <|> spot }

end Refusal

/-- A result whose refusal is settled at a spot. -/
def settled (spot : Option Spot) (result : Except Refusal α) : Except Refusal α :=
  result.mapError (Refusal.settle spot)

/-- A result whose refusal is settled in front of the given characters. -/
def settledAt (rest : List Char) (result : Except Refusal α) : Except Refusal α :=
  settled (some { rest }) result

/-! ## Refusing -/

/-- Refuses a value and leaves the spot to what holds the value. -/
def refuse (fault : Fault) : Except Refusal α := .error { fault }

/-- Refuses a text in front of the given characters. -/
def refuseAt (fault : Fault) (rest : List Char) : Except Refusal α :=
  .error { fault, spot := some { rest } }

/-- Refuses a text because of the character that comes next, of which one byte is
looked at. -/
def refuseNext (fault : Fault) (rest : List Char) : Except Refusal α :=
  .error { fault, spot := some { rest, ahead := 1 } }

/-- Refuses a text because it ends. -/
def refuseEnd (fault : Fault) : Except Refusal α := refuseAt fault []

/-! ## Lines and columns -/

/-- A line and a column as messages count them. -/
structure Place where
  /-- The line, counted from one. -/
  line : Nat := 1
  /-- The number of bytes of that line up to the place. -/
  column : Nat := 0
deriving DecidableEq, Repr, Inhabited

namespace Place

/-- The place in words. -/
def message (place : Place) : String := s!" at line {place.line} column {place.column}"

/-- The place so many bytes further on in a text. -/
def advance (place : Place) : Nat → List Char → Place
  | _, [] => place
  | count, c :: rest =>
      if count = 0 then place
      else if c = '\n' then advance { line := place.line + 1 } (count - 1) rest
      else
        let size := min c.utf8Size count
        advance { place with column := place.column + size } (count - size) rest

/-- The place of a spot in a text. -/
def ofSpot (text : List Char) (spot : Spot) : Place :=
  let before := Text.byteCount text - Text.byteCount spot.rest
  advance {} (before + spot.ahead) text

end Place

/-- A fault together with its place, if it has one. -/
structure Misread where
  /-- What is wrong. -/
  fault : Fault
  /-- Where it lies. -/
  place : Option Place := none
deriving DecidableEq, Repr, Inhabited

namespace Misread

/-- The place of the fault in words. -/
def placeText (misread : Misread) : String :=
  match misread.place with
  | some place => place.message
  | none => ""

/-- The wording of the fault with its place. -/
def message (misread : Misread) : String := misread.fault.message ++ misread.placeText

/-- The refusal of a text, with its place in that text. -/
def ofRefusal (text : String) (refusal : Refusal) : Misread :=
  { fault := refusal.fault
    place := refusal.spot.map (Place.ofSpot text.toList) }

end Misread

end Wiring.Json
