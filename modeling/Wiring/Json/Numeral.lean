import Wiring.Json.Fault
import Wiring.Text.Basic

/-!
# Numbers of a JSON text

A numeral is a number as it is spelled; its value is a whole number where the
spelling has neither fraction nor exponent and fits a 64-bit word, and a binary64
number otherwise. Digits beyond those that fit a word only move the decimal
point, and the power of ten is applied in one rounded step.
-/

namespace Wiring.Json

open Decimal (Binary64)

/-- A number as it is spelled. -/
structure Numeral where
  /-- Whether a minus sign comes first. -/
  isNegative : Bool
  /-- The digits before the point. -/
  whole : List Char
  /-- The digits after the point, if there is one. -/
  fraction : Option (List Char) := none
  /-- Whether the exponent is negative, and its digits, if there is one. -/
  exponent : Option (Bool × List Char) := none
deriving DecidableEq, Repr, Inhabited

/-- The value of a number. -/
inductive Number where
  /-- A whole number that fits a 64-bit word. -/
  | integer (value : Int)
  /-- Any other number. -/
  | real (value : Binary64)
deriving DecidableEq, Repr, Inhabited

/-- How a message reports the number. -/
def Number.found : Number → Found
  | integer value => .integer value
  | real value => .real value

/-- Adds digits to a number while it stays at most `limit`, and returns the
digits that no longer fit. -/
def takeDigits (limit : Nat) : Nat → List Char → Nat × List Char
  | value, [] => (value, [])
  | value, c :: rest =>
      let next := value * 10 + Text.digitValue c
      if limit < next then (value, c :: rest) else takeDigits limit next rest

namespace Numeral

/-- The largest significand that is collected digit by digit. -/
def wordLimit : Nat := Word.count - 1

/-- The largest exponent that is collected digit by digit. -/
def exponentLimit : Nat := 2147483647

/-- Applies a power of ten. Powers beyond 308 divide in steps until nothing is
left; what grows too large is out of range. -/
def scale (x : Binary64) (exponent : Int) : Except Fault Binary64 :=
  if 308 < exponent then
    if x.significand = 0 then .ok x else .error .numberOutOfRange
  else if 0 ≤ exponent then
    match x.mul (Binary64.powerOfTen exponent.toNat) with
    | some y => .ok y
    | none => .error .numberOutOfRange
  else if -308 ≤ exponent then
    .ok ((x.div (Binary64.powerOfTen (-exponent).toNat)).getD (.zero x.isNegative))
  else if x.significand = 0 then .ok x
  else
    scale ((x.div (Binary64.powerOfTen 308)).getD (.zero x.isNegative)) (exponent + 308)
termination_by (-exponent).toNat
decreasing_by omega

/-- The number `significand * 10 ^ exponent` with a sign. -/
def assemble (isNegative : Bool) (significand : Nat) (exponent : Int) :
    Except Fault Number := do
  let magnitude := (Binary64.ofRatio false significand 1).getD (.zero false)
  let scaled ← scale magnitude exponent
  pure (.real { scaled with isNegative })

/-- The digits of the exponent behind the one with which it grows too large to be
collected. -/
def unreadDigits (n : Numeral) : List Char :=
  match n.exponent with
  | none => []
  | some (_, digits) => (takeDigits exponentLimit 0 digits).2.drop 1

/-- The value of a numeral. -/
def value (n : Numeral) : Except Fault Number :=
  let (significand, extra) := takeDigits wordLimit 0 n.whole
  match extra, n.fraction, n.exponent with
  | [], none, none =>
      if n.isNegative then
        if significand = 0 ∨ Word.signedCount < significand then
          .ok (.real { (Binary64.ofRatio false significand 1).getD (.zero false) with
            isNegative := true })
        else .ok (.integer (-significand))
      else .ok (.integer significand)
  | extra, fraction, exponent =>
      let digits := fraction.getD []
      let (significand, unused) := takeDigits wordLimit significand digits
      let point : Int := extra.length - (digits.length - unused.length : Nat)
      match exponent with
      | none => assemble n.isNegative significand point
      | some (isNegative, digits) =>
          let (power, unread) := takeDigits exponentLimit 0 digits
          if unread = [] then
            assemble n.isNegative significand
              (if isNegative then point - power else point + power)
          else if significand ≠ 0 ∧ !isNegative then .error .numberOutOfRange
          else .ok (.real (.zero n.isNegative))

end Numeral

end Wiring.Json
