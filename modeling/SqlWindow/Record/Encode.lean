import SqlWindow.Record.Bytes
import SqlWindow.Row

set_option autoImplicit false

/-! # Rows as bytes

The form of a spilled row: the number of its values in four bytes, then the values, each
behind a byte that tells its variant.

| tag | value     | then                                   |
|-----|-----------|----------------------------------------|
| 0   | NULL      | the code of its type                   |
| 1   | BOOLEAN   | 0 or 1                                 |
| 2   | INTEGER   | 8 bytes                                |
| 3   | FLOAT     | the 8 bytes of its bits                |
| 4   | TEXT      | length in 4 bytes, UTF-8               |
| 6   | JSON      | length in 4 bytes, UTF-8               |
| 8   | TIMESTAMP | seconds in 8 bytes, nanoseconds in 4   |
-/

namespace SqlWindow

namespace Record

/-- A 64-bit integer in two's complement. -/
def encodeInt64 (i : Int64) : List UInt8 := littleEndian 8 i.toUInt64.toNat

/-- A text behind its length. -/
def encodeText (s : String) : List UInt8 :=
  let bytes := Utf8.encode s
  littleEndian 4 bytes.length ++ bytes

/-- The bytes of a value. -/
def encodeValue : Value → List UInt8
  | .null type => [0, type.code]
  | .boolean b => [1, if b then 1 else 0]
  | .integer i => 2 :: encodeInt64 i
  | .float x => 3 :: littleEndian 8 x.bits.toNat
  | .text s => 4 :: encodeText s
  | .json s => 6 :: encodeText s
  | .timestamp t => 8 :: (encodeInt64 (Int64.ofInt t.seconds) ++ littleEndian 4 t.nanos)

/-- The bytes of a row. -/
def encodeRow (row : Row) : List UInt8 := littleEndian 4 row.length ++ row.flatMap encodeValue

end Record

end SqlWindow
