set_option autoImplicit false

/-! # CRC-32

The checksum of spilled rows: the cyclic redundancy check of ISO 3309 with bits taken from
the least significant end. The remainder starts with all bits set, takes in one byte at a time
and is complemented at the end.
-/

namespace SqlWindow

namespace Crc32

/-- The generator polynomial, least significant bit first. -/
def polynomial : UInt32 := 0xEDB88320

/-- One bit of division: the remainder moves down by one place, and the polynomial is taken
off when the bit that left was set. -/
def shift (r : UInt32) : UInt32 :=
  if r &&& 1 = 1 then (r >>> 1) ^^^ polynomial else r >>> 1

/-- The remainder after one more byte. -/
def step (r : UInt32) (b : UInt8) : UInt32 :=
  shift (shift (shift (shift (shift (shift (shift (shift (r ^^^ b.toUInt32))))))))

end Crc32

/-- The checksum of some bytes. -/
def crc32 (bytes : List UInt8) : UInt32 :=
  bytes.foldl Crc32.step 0xFFFFFFFF ^^^ 0xFFFFFFFF

/-- The check value of the standard: the checksum of the digits from 1 to 9. -/
example : crc32 [49, 50, 51, 52, 53, 54, 55, 56, 57] = 0xCBF43926 := by
  decide +kernel

end SqlWindow
