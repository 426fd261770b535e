import SqlWindow.Record.Encode

set_option autoImplicit false

/-! # Reading rows back from bytes

Bytes are a row when they hold the announced number of values and nothing more. Two things are
read more freely than they are written: any byte but 0 is a true boolean, and a NULL with an
unknown type code has no type.
-/

namespace SqlWindow

namespace Record

/-- The next 64-bit integer. -/
def takeInt64 (part : String) : Reader Int64 := do
  return Int64.ofNat (← takeNat 8 part)

/-- The next text behind its length. -/
def takeText (part : String) : Reader String := do
  let count ← takeNat 4 part
  let bytes ← takeBytes count part
  match Utf8.decode bytes with
  | .ok s => return s
  | .error e => throw (corrupt s!"invalid {part}: {e.message}")

/-- The next value. -/
def takeValue : Reader Value := do
  match ← takeNat 1 "type tag" with
  | 0 => return .null ((DataType.ofCode? (UInt8.ofNat (← takeNat 1 "null type"))).getD .null)
  | 1 => return .boolean ((← takeNat 1 "boolean value") != 0)
  | 2 => return .integer (← takeInt64 "integer value")
  | 3 => return .float ⟨UInt64.ofNat (← takeNat 8 "float value")⟩
  | 4 => return .text (← takeText "text data")
  | 6 => return .json (← takeText "json data")
  | 8 =>
    let seconds ← takeInt64 "timestamp seconds"
    let nanos ← takeNat 4 "timestamp nanos"
    match Timestamp.ofParts? seconds.toInt nanos with
    | some t => return .timestamp t
    | none => throw (corrupt "invalid timestamp")
  | tag => throw (corrupt s!"unknown value tag {tag}")

/-- The next `count` values. -/
def takeValues : (count : Nat) → Reader (List Value)
  | 0 => return []
  | count + 1 => do
    let v ← takeValue
    return v :: (← takeValues count)

/-- The row that takes up all of the bytes. -/
def decodeRow (bytes : List UInt8) : Except Error Row := do
  let (count, bytes) ← takeNat 4 "value count" bytes
  let (row, rest) ← takeValues count bytes
  if rest.isEmpty then return row
  else throw (corrupt s!"{rest.length} trailing bytes after row")

end Record

end SqlWindow
