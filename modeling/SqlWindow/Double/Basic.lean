set_option autoImplicit false

/-! # Doubles

A double is an IEEE 754 binary64 number, kept as its 64 bits so that nothing about it is
lost: the sign of zero and the payload of a NaN included. Every finite double is a whole
multiple of `2⁻¹⁰⁷⁴`, the smallest positive one; `Double.units` is that multiple, and it is
the exact value all comparison and arithmetic goes through.
-/

namespace SqlWindow

/-- A binary64 number: one bit of sign, eleven bits of exponent, fifty-two bits of
fraction, from the most significant bit down. -/
structure Double where
  /-- The 64 bits. -/
  bits : UInt64
deriving DecidableEq, Inhabited, Repr

namespace Double

/-! ## Sign and magnitude -/

/-- The sign bit: `2⁶³`. -/
def signBit : Nat := 0x8000000000000000

/-- The bit above the fraction: `2⁵²`. It counts one step of the exponent, and it is the leading
one that is not stored with a fraction. -/
def leadingBit : Nat := 0x10000000000000

/-- The sign bit is set. -/
def isNegative (x : Double) : Bool := decide (signBit ≤ x.bits.toNat)

/-- The bits below the sign, read as a number. -/
def magnitude (x : Double) : Nat := x.bits.toNat % signBit

/-- The double with a given sign and magnitude. -/
def ofMagnitude (negative : Bool) (magnitude : Nat) : Double :=
  ⟨UInt64.ofNat ((if negative then signBit else 0) + magnitude)⟩

/-- The magnitude of both infinities; larger magnitudes are NaN. -/
def infinityMagnitude : Nat := 2047 * leadingBit

/-- The double is not a number. -/
def isNaN (x : Double) : Bool := decide (infinityMagnitude < x.magnitude)

/-- The double is one of the two infinities. -/
def isInfinite (x : Double) : Bool := decide (x.magnitude = infinityMagnitude)

/-- The double that stands for no number. -/
def nan : Double := ofMagnitude false (infinityMagnitude + leadingBit / 2)

/-- The infinity of a given sign. -/
def infinity (negative : Bool) : Double := ofMagnitude negative infinityMagnitude

/-- The zero of a given sign. -/
def zero (negative : Bool) : Double := ofMagnitude negative 0

/-! ## The exact value -/

/-- How many units of `2⁻¹⁰⁷⁴` a magnitude stands for. Below `2⁵²` a unit each
(subnormals); from there on the fraction has a leading one, and every step of the exponent
doubles it. -/
def unitsOfMagnitude (m : Nat) : Nat :=
  if m < leadingBit then m else (leadingBit + m % leadingBit) <<< (m / leadingBit - 1)

/-- The value in units of `2⁻¹⁰⁷⁴`. An infinity counts as the first power of two past the
finite doubles, which puts it above all of them. -/
def units (x : Double) : Int :=
  if x.isNegative then -(unitsOfMagnitude x.magnitude : Int) else unitsOfMagnitude x.magnitude

/-- How many units make one. -/
def unitsPerOne : Nat := 1 <<< 1074

/-! ## Comparison -/

/-- Numeric equality, in which a NaN equals every NaN and both zeros are one number. -/
def same (x y : Double) : Bool :=
  if x.isNaN || y.isNaN then x.isNaN && y.isNaN else x.units == y.units

/-- Numeric order, in which NaN is above every number and equal to itself. -/
def order (x y : Double) : Ordering :=
  match x.isNaN, y.isNaN with
  | true, true => .eq
  | true, false => .gt
  | false, true => .lt
  | false, false => compare x.units y.units

end Double

end SqlWindow
