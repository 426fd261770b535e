import SqlWindow.Crc32
import SqlWindow.Record.Decode

set_option autoImplicit false

/-! # Spill files

The rows of a partition that found no room in memory are records in a file, one behind the
other:

| length of the row in bytes | the row | checksum of the row |
|----------------------------|---------|---------------------|
| 4 bytes                    |         | 4 bytes             |

Appended records wait in front of the file until something is read. Rows are read back by
pages of consecutive rows; the last few pages read are kept.
-/

namespace SqlWindow

/-- A page that has been read: its number and its rows. -/
abbrev Page := Nat × List Row

/-- A file of spilled rows. -/
structure SpillFile where
  /-- The bytes in the file. -/
  file : List UInt8 := []
  /-- Appended bytes that are not in the file yet. -/
  pending : List UInt8 := []
  /-- Where each record starts. -/
  offsets : Array Nat := #[]
  /-- Where the next record starts. -/
  endOffset : Nat := 0
  /-- The pages kept, the one read first in front. -/
  pages : List Page := []
deriving Inhabited

namespace SpillFile

/-! ## Bytes of a file -/

/-- A file with some bytes written over it from an offset on. A gap between the end of the file
and the offset is filled with zeros. Writing no bytes fills no gap. -/
def overwrite (file : List UInt8) (offset : Nat) (bytes : List UInt8) : List UInt8 :=
  if bytes.isEmpty then file
  else file.take offset ++ List.replicate (offset - file.length) 0 ++ bytes ++
    file.drop (offset + bytes.length)

/-- A file cut, or filled up with zeros, to a length. -/
def resize (file : List UInt8) (length : Nat) : List UInt8 :=
  file.take length ++ List.replicate (length - file.length) 0

/-! ## Writing -/

/-- The record of an encoded row. -/
def record (payload : List UInt8) : List UInt8 :=
  Record.littleEndian 4 payload.length ++ payload ++ Record.littleEndian 4 (crc32 payload).toNat

/-- The number of rows. -/
def length (f : SpillFile) : Nat := f.offsets.size

/-- The file with one more row behind the others. -/
def append (f : SpillFile) (row : Row) : Except Error SpillFile :=
  let payload := Record.encodeRow row
  if payload.length < UInt32.size then
    .ok { f with
      pending := f.pending ++ record payload
      offsets := f.offsets.push f.endOffset
      endOffset := f.endOffset + (record payload).length }
  else .error (.internal "row too large to spill")

/-- The file with everything appended written out. With nothing to write the file stays as it
is, also when it was cut from outside. -/
def flush (f : SpillFile) : SpillFile :=
  if f.pending.isEmpty then f
  else { f with
    file := overwrite f.file (f.endOffset - f.pending.length) f.pending
    pending := [] }

/-! ## Reading -/

/-- The row of the record in front of some bytes, and the bytes behind the record. `row` is its
position in the partition. -/
def readRecord (row : Nat) (bytes : List UInt8) : Except Error (Row × List UInt8) := do
  let truncated := Error.spillCorrupted row 0 0
  let size := Record.ofLittleEndian (bytes.take 4)
  if bytes.length < 8 + size then throw truncated
  let payload := (bytes.drop 4).take size
  let stored := UInt32.ofNat (Record.ofLittleEndian ((bytes.drop (4 + size)).take 4))
  let computed := crc32 payload
  if stored ≠ computed then throw (.spillCorrupted row stored computed)
  return (← Record.decodeRow payload, bytes.drop (8 + size))

/-- The rows of the first `count` records of some bytes. -/
def readRecords (row : Nat) : (count : Nat) → List UInt8 → Except Error (List Row)
  | 0, _ => return []
  | count + 1, bytes => do
    let (first, rest) ← readRecord row bytes
    return first :: (← readRecords (row + 1) count rest)

/-- The rows from position `first` up to but without `last`, read from the file. `base` is the
position of the file's first row in the partition. -/
def readRows (f : SpillFile) (base first last : Nat) : Except Error (List Row) :=
  let start := f.offsets.getD first f.endOffset
  let stop := f.offsets.getD last f.endOffset
  if f.file.length < stop then .error (.io "failed to fill whole buffer")
  else readRecords (base + first) (last - first) ((f.file.drop start).take (stop - start))

/-! ## Pages -/

/-- How many pages are kept. -/
def maxPages : Nat := 4

/-- The page kept under a number. -/
def page? (f : SpillFile) (number : Nat) : Option (List Row) := f.pages.lookup number

/-- The file without a page. -/
def dropPage (f : SpillFile) (number : Nat) : SpillFile :=
  { f with pages := f.pages.filter (·.1 != number) }

/-- The file with one more page kept. When there are enough, the one read first goes. -/
def keepPage (f : SpillFile) (number : Nat) (rows : List Row) : SpillFile :=
  let others := if f.pages.length = maxPages then f.pages.drop 1 else f.pages
  { f with pages := others ++ [(number, rows)] }

end SpillFile

end SqlWindow
