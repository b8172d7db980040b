import Wiring.Text.Basic

/-!
# Searching and splitting text

Occurrences of a text inside another are taken from the left and do not overlap.
-/

namespace Wiring.Text

/-- The parts before and after the first occurrence of `needle`. -/
def splitOnce (needle : List Char) : List Char → Option (List Char × List Char)
  | [] => if needle.isEmpty then some ([], []) else none
  | c :: rest =>
      if needle.isPrefixOf (c :: rest) then some ([], (c :: rest).drop needle.length)
      else
        match splitOnce needle rest with
        | some (before, after) => some (c :: before, after)
        | none => none

/-- Puts a character in front of the first part. -/
def pushFront (c : Char) : List (List Char) → List (List Char)
  | [] => [[c]]
  | part :: parts => (c :: part) :: parts

/-- The parts between the occurrences of `needle`, which is not empty. The first
argument counts the characters of an occurrence that are still to be passed. -/
def splitParts (needle : List Char) : Nat → List Char → List (List Char)
  | _, [] => [[]]
  | passing + 1, _ :: rest => splitParts needle passing rest
  | 0, c :: rest =>
      if needle.isPrefixOf (c :: rest) then
        [] :: splitParts needle (needle.length - 1) rest
      else pushFront c (splitParts needle 0 rest)

/-- The parts between the occurrences of `needle`, which is not empty. -/
def splitAll (needle chars : List Char) : List (List Char) := splitParts needle 0 chars

/-- Where `needle` first occurs, in bytes. -/
def findByte (text needle : String) : Option Nat :=
  (splitOnce needle.toList text.toList).map fun (before, _) =>
    byteCount before

/-- A line without a carriage return at its end. -/
def dropReturn (line : List Char) : List Char :=
  match line.getLast? with
  | some '\r' => line.dropLast
  | _ => line

/-- The lines of a text. A line feed ends a line, together with a carriage return
before it; nothing behind the last line feed is no line. -/
def lines (chars : List Char) : List (List Char) :=
  let parts := splitAll ['\n'] chars
  let ended := parts.dropLast.map dropReturn
  match parts.getLast? with
  | some (c :: rest) => ended ++ [c :: rest]
  | _ => ended

end Wiring.Text
