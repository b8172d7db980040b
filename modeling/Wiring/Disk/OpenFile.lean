import Wiring.Disk.Basic

/-!
# Files that are being written

An open file knows its number, how far it was written, and what is held back. What
is held back is written once more would not fit, or when the file is drained; a
text that alone is as long as the room is written at once. Writing does not care
where the file is by now. It may be denied; what of the bytes was written by then stays
written.
-/

namespace Wiring

/-- The content with bytes written at an offset; a gap before it is filled with
zeros. -/
def overwrite (content : ByteArray) (offset : Nat) (bytes : ByteArray) : ByteArray :=
  let gap := ByteArray.mk (Array.replicate (offset - content.size) 0)
  content.extract 0 offset ++ gap ++ bytes ++
    content.extract (offset + bytes.size) content.size

/-- A file that is being written. -/
structure OpenFile where
  /-- The number of the file. -/
  id : Nat
  /-- How many bytes were written. -/
  offset : Nat := 0
  /-- What is held back. -/
  pending : ByteArray := .empty
deriving Inhabited

namespace OpenFile

/-- How many bytes may be held back. -/
def room : Nat := 8192

/-- Puts bytes into the file. -/
def put (file : OpenFile) (bytes : ByteArray) (disk : Disk) : OpenFile × Disk :=
  ({ file with offset := file.offset + bytes.size },
    disk.modify file.id fun content => overwrite content file.offset bytes)

/-- Writes bytes to the disk, or as many of them as can be written. -/
def write (file : OpenFile) (bytes : ByteArray) (disk : Disk) :
    Except SystemFault Unit × OpenFile × Disk :=
  if bytes.isEmpty then (.ok (), file, disk)
  else
    match disk.denial (.write file.id file.offset bytes.size) with
    | none => (.ok (), file.put bytes disk)
    | some denial => (.error denial.fault, file.put (bytes.extract 0 denial.written) disk)

/-- Writes what is held back. What could not be written is still held back. -/
def drain (file : OpenFile) (disk : Disk) : Except SystemFault Unit × OpenFile × Disk :=
  let (answer, written, disk) := file.write file.pending disk
  let rest := file.pending.extract (written.offset - file.offset) file.pending.size
  (answer, { written with pending := rest }, disk)

/-- Drains the file unless more bytes can be held back. -/
def makeRoom (file : OpenFile) (count : Nat) (disk : Disk) :
    Except SystemFault Unit × OpenFile × Disk :=
  if file.pending.size + count ≤ room then (.ok (), file, disk) else file.drain disk

/-- Takes bytes. -/
def append (file : OpenFile) (bytes : ByteArray) (disk : Disk) :
    Except SystemFault Unit × OpenFile × Disk :=
  match file.makeRoom bytes.size disk with
  | (.error fault, file, disk) => (.error fault, file, disk)
  | (.ok (), file, disk) =>
      if bytes.size < room then (.ok (), { file with pending := file.pending ++ bytes }, disk)
      else file.write bytes disk

end OpenFile

end Wiring
