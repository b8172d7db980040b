import Wiring.Json.Node
import Wiring.Json.Refusal
import Wiring.Json.Value

/-!
# Reading nodes as types

A reader walks a node from left to right and stops at the first fault. A value
whose type is known is checked where it stands; a value of no interest is skipped
(`Node.skip`), and one whose meaning depends on what comes later is kept whole
(`Node.keep`) and looked at afterwards.
-/

namespace Wiring.Json

variable {α : Type}

/-! ## Quoted texts -/

namespace TextEnd

/-- Accepts the end of a text that was read. -/
def close : TextEnd → Except Refusal Unit
  | closed _ => .ok ()
  | cutOff => refuseEnd .endInText
  | control rest => refuseNext .controlCharacter rest
  | badEscape rest => refuseNext .invalidEscape rest
  | badDigits rest => .error { fault := .invalidEscape, spot := some { rest, ahead := 4 } }

/-- Accepts the end of a text that was passed over. There a control character is
not taken from the text before it is refused. -/
def skip : TextEnd → Except Refusal Unit
  | control rest => refuseAt .controlCharacter rest
  | ending => ending.close

end TextEnd

/-- Refuses what follows the first half of a surrogate pair and is not the
beginning of an escape by digits. -/
def refusePair (rest : List Char) : Except Refusal α :=
  match rest with
  | '\\' :: _ => .error { fault := .brokenPair, spot := some { rest, ahead := 2 } }
  | _ => refuseNext .brokenPair rest

/-- Refuses a text that ends behind the first half of a surrogate pair. -/
def TextEnd.refuseInPair (rest : List Char) : TextEnd → Except Refusal α
  | cutOff => refuseEnd .endInText
  | badDigits digits =>
      .error { fault := .invalidEscape, spot := some { rest := digits, ahead := 4 } }
  | closed _ | control _ | badEscape _ => refusePair rest

/-- Whether a 16-bit unit is the first half of a surrogate pair. -/
def isHighSurrogate (unit : Nat) : Bool := 0xd800 ≤ unit && unit ≤ 0xdbff

/-- Whether a 16-bit unit is the second half of a surrogate pair. -/
def isLowSurrogate (unit : Nat) : Bool := 0xdc00 ≤ unit && unit ≤ 0xdfff

/-- The character that a surrogate pair stands for. -/
def pairChar (high low : Nat) : Char :=
  Char.ofNat (0x10000 + (high - 0xd800) * 0x400 + (low - 0xdc00))

/-- The characters that units stand for. -/
def decodeUnits (ending : TextEnd) : List TextUnit → Except Refusal (List Char)
  | [] => ending.close.map fun _ => []
  | .char c :: units => (decodeUnits ending units).map (c :: ·)
  | [.code unit rest] =>
      if isLowSurrogate unit then refuseAt .loneSurrogate rest
      else if isHighSurrogate unit then ending.refuseInPair rest
      else (decodeUnits ending []).map (Char.ofNat unit :: ·)
  | .code unit rest :: .char c :: units =>
      if isLowSurrogate unit then refuseAt .loneSurrogate rest
      else if isHighSurrogate unit then refusePair rest
      else (decodeUnits ending units).map (Char.ofNat unit :: c :: ·)
  | .code unit rest :: .code next behind :: units =>
      if isLowSurrogate unit then refuseAt .loneSurrogate rest
      else if isHighSurrogate unit then
        if isLowSurrogate next then
          (decodeUnits ending units).map (pairChar unit next :: ·)
        else refuseAt .loneSurrogate behind
      else (decodeUnits ending (.code next behind :: units)).map (Char.ofNat unit :: ·)

namespace QuotedText

/-- The text that is meant. -/
def decode (text : QuotedText) : Except Refusal String :=
  (decodeUnits text.ending text.units).map String.ofList

/-- Checks only that the text ends properly. -/
def skip (text : QuotedText) : Except Refusal Unit := text.ending.skip

end QuotedText

/-! ## Ends of arrays and objects -/

namespace Tail

/-- The end of an array whose elements were all read. -/
def endArray : Tail → Except Refusal Unit
  | closed _ => .ok ()
  | cutOff => refuseEnd .endInArray
  | comma rest => refuseNext .trailingComma rest
  | commaCutOff => refuseEnd .endInValue
  | badName rest | junk rest => refuseNext .expectedElement rest

/-- The end of an object whose members were all read. -/
def endObject : Tail → Except Refusal Unit
  | closed _ => .ok ()
  | cutOff => refuseEnd .endInObject
  | comma rest => refuseNext .trailingComma rest
  | commaCutOff => refuseEnd .endInValue
  | badName rest => refuseNext .nameNotText rest
  | junk rest => refuseNext .expectedMember rest

/-- The end of an array from which no further element is wanted. -/
def closeArray : Tail → Except Refusal Unit
  | closed _ => .ok ()
  | cutOff => refuseEnd .endInArray
  | comma rest => refuseNext .trailingComma rest
  | commaCutOff => refuseEnd .trailingText
  | badName rest | junk rest => refuseNext .trailingText rest

/-- The end of an array that is skipped. -/
def skipArray : Tail → Except Refusal Unit
  | closed _ => .ok ()
  | cutOff => refuseEnd .endInArray
  | comma rest => refuseNext .expectedValue rest
  | commaCutOff => refuseEnd .endInValue
  | badName rest | junk rest => refuseNext .expectedElement rest

/-- The end of an object that is skipped. -/
def skipObject : Tail → Except Refusal Unit
  | closed _ => .ok ()
  | cutOff | commaCutOff => refuseEnd .endInObject
  | comma rest | badName rest => refuseNext .nameNotText rest
  | junk rest => refuseNext .expectedMember rest

end Tail

/-! ## Words and numbers -/

/-- Refuses a word that breaks off in front of the given characters. -/
def refuseWord (rest : List Char) : Except Refusal α :=
  if rest.isEmpty then refuseEnd .endInValue else refuseNext .expectedWord rest

/-- Refuses a number that breaks off in front of the given characters. -/
def refuseNumber (rest : List Char) : Except Refusal α :=
  if rest.isEmpty then refuseEnd .endInValue else refuseNext .invalidNumber rest

/-- The value of a numeral in front of the given characters. An exponent that grows
too large to be collected is refused at that digit, a number that is out of range
behind its last one. -/
def Numeral.read (numeral : Numeral) (rest : List Char) : Except Refusal Number :=
  settledAt (numeral.unreadDigits ++ rest)
    (numeral.value.mapError fun fault => { fault })

/-! ## Skipping and keeping -/

mutual

/-- Passes over a value, checking no more than its grammar. -/
def Node.skip : Node → Except Refusal Unit
  | .null _ | .flag _ _ | .number _ _ => .ok ()
  | .brokenNumber extent => refuseNext .invalidNumber extent.rest
  | .brokenNull extent | .brokenFlag extent => refuseWord extent.rest
  | .text text => text.skip
  | .array _ items tail => do
      skipItems items
      tail.skipArray
  | .object _ members tail => do
      skipMembers members
      tail.skipObject
  | .missing fault rest => refuseNext fault rest

/-- Passes over the elements of an array. -/
def skipItems : List (Item Node) → Except Refusal Unit
  | [] => .ok ()
  | ⟨value, _⟩ :: items => do
      value.skip
      skipItems items

/-- Passes over the members of an object. -/
def skipMembers : List (Member Node) → Except Refusal Unit
  | [] => .ok ()
  | ⟨name, _, value, _⟩ :: members => do
      name.skip
      value.skip
      skipMembers members

end

/-- How many arrays and objects may be open at once where values are kept. -/
def depthLimit : Nat := 127

mutual

/-- Reads a value of any type, inside which `room` arrays and objects may still
be opened. -/
def Node.keep (room : Nat) : Node → Except Refusal Value
  | .null _ => .ok .null
  | .flag value _ => .ok (.flag value)
  | .number numeral extent => (numeral.read extent.rest).map .number
  | .brokenNumber extent => refuseNumber extent.rest
  | .brokenNull extent | .brokenFlag extent => refuseWord extent.rest
  | .text text => text.decode.map .text
  | .array start items tail => do
      if room = 0 then refuseNext .tooDeep start
      let values ← keepItems (room - 1) items
      tail.endArray
      pure (.array values)
  | .object start members tail => do
      if room = 0 then refuseNext .tooDeep start
      let values ← keepMembers (room - 1) members
      tail.endObject
      pure (.object values)
  | .missing fault rest => refuseNext fault rest

/-- Reads the elements of an array. -/
def keepItems (room : Nat) : List (Item Node) → Except Refusal (List Value)
  | [] => .ok []
  | ⟨value, _⟩ :: items => do
      let value ← value.keep room
      let values ← keepItems room items
      pure (value :: values)

/-- Reads the members of an object. -/
def keepMembers (room : Nat) : List (Member Node) → Except Refusal (List (String × Value))
  | [] => .ok []
  | ⟨name, _, value, _⟩ :: members => do
      let name ← name.decode
      let value ← value.keep room
      let values ← keepMembers room members
      pure ((name, value) :: values)

end

/-! ## Simple types -/

/-- Refuses a node that is not of the expected type. What is wrong inside a text, a
word or a number comes first; arrays and objects are not entered. -/
def Node.mismatch (expected : Expected) : Node → Except Refusal α
  | .null extent => refuseAt (.unexpectedType .nothing expected) extent.rest
  | .flag value extent => refuseAt (.unexpectedType (.flag value) expected) extent.rest
  | .number numeral extent => do
      let value ← numeral.read extent.rest
      refuseAt (.unexpectedType value.found expected) extent.rest
  | .brokenNumber extent => refuseNumber extent.rest
  | .brokenNull extent | .brokenFlag extent => refuseWord extent.rest
  | .text quoted => do
      let value ← quoted.decode
      refuseAt (.unexpectedType (.text value) expected) quoted.rest
  | .array start _ _ => refuseAt (.unexpectedType .sequence expected) start
  | .object start _ _ => refuseAt (.unexpectedType .map expected) start
  | .missing fault rest => refuseNext fault rest

/-- Reads a text. -/
def readText (expected : Expected) : Node → Except Refusal String
  | .text text => text.decode
  | node => node.mismatch expected

/-- Reads a truth value. -/
def readFlag : Node → Except Refusal Bool
  | .flag value _ => .ok value
  | node => node.mismatch .flag

/-- Reads the word for no value. -/
def readUnit : Node → Except Refusal Unit
  | .null _ => .ok ()
  | node => node.mismatch .unit

/-- Reads a value that may be left out. -/
def readOptional (read : Node → Except Refusal α) : Node → Except Refusal (Option α)
  | .null _ => .ok none
  | .brokenNull extent => refuseWord extent.rest
  | node => (read node).map some

/-- Reads an array of values of one type. -/
def readList (read : Node → Except Refusal α) : Node → Except Refusal (List α)
  | .array _ items tail => do
      let values ← items.mapM fun item => settledAt item.behind (read item.value)
      tail.endArray
      pure values
  | node => node.mismatch .sequence

/-! ## Texts -/

/-- Reads a whole text; behind the value only blanks may follow. -/
def parse (read : Node → Except Refusal α) (text : String) : Except Refusal α := do
  let node := Node.scan text.toList
  let value ← read node
  match skipSpace node.rest with
  | [] => pure value
  | rest => refuseNext .trailingText rest

/-- Reads a whole text and tells where the first fault lies. -/
def parsePlaced (read : Node → Except Refusal α) (text : String) : Except Misread α :=
  (parse read text).mapError (Misread.ofRefusal text)

end Wiring.Json
