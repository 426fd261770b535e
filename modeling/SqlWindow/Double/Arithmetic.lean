import SqlWindow.Double.Basic

set_option autoImplicit false

/-! # Arithmetic on doubles

Sums, quotients and conversions are computed exactly and rounded once: to the nearest
double, and of two that are equally near to the one whose fraction is even. What is too
large for every finite double becomes an infinity.
-/

namespace SqlWindow

namespace Double

/-! ## Rounding -/

/-- The magnitude nearest to `num / den` units of `2⁻¹⁰⁷⁴`, ties to even. The quotient is
cut to 53 significant bits; what was cut off decides whether the magnitude moves up by one,
which also carries into the exponent where it must. -/
def roundToMagnitude (num den : Nat) : Nat :=
  let shift := (num / den).log2 - 52
  let step := den <<< shift
  let floor := shift * leadingBit + num / step
  let rest := 2 * (num % step)
  let rounded := if step < rest ∨ (rest = step ∧ floor % 2 = 1) then floor + 1 else floor
  min rounded infinityMagnitude

/-- The double nearest to a whole number of units; `negativeZero` is the sign of a zero. -/
def ofUnits (negativeZero : Bool) (u : Int) : Double :=
  if u = 0 then zero negativeZero else ofMagnitude (decide (u < 0)) (roundToMagnitude u.natAbs 1)

/-- The double nearest to an integer. -/
def ofInt (i : Int) : Double := ofUnits false (i * unitsPerOne)

/-- The double nearest to a 64-bit integer. -/
def ofInt64 (i : Int64) : Double := ofInt i.toInt

/-! ## Operations -/

/-- The double with the other sign, NaN included. -/
def neg (x : Double) : Double := ofMagnitude (!x.isNegative) x.magnitude

/-- The rounded sum. Infinities of opposite sign have none; a sum of exactly zero is
negative only when both terms are. -/
def add (x y : Double) : Double :=
  if x.isNaN || y.isNaN then nan
  else if x.isInfinite then
    if y.isInfinite && x.isNegative != y.isNegative then nan else x
  else if y.isInfinite then y
  else ofUnits (x.isNegative && y.isNegative) (x.units + y.units)

/-- The rounded difference. -/
def sub (x y : Double) : Double := add x (neg y)

/-- The rounded quotient. Zero by zero and infinity by infinity have none; any other
number by zero is infinite. -/
def div (x y : Double) : Double :=
  let negative := x.isNegative != y.isNegative
  if x.isNaN || y.isNaN then nan
  else if x.isInfinite then
    if y.isInfinite then nan else infinity negative
  else if y.isInfinite then zero negative
  else if y.units = 0 then
    if x.units = 0 then nan else infinity negative
  else ofMagnitude negative (roundToMagnitude (x.units.natAbs * unitsPerOne) y.units.natAbs)

/-! ## Conversion to integers -/

/-- The integer part, cut toward zero and held to the 64-bit range; 0 for NaN. -/
def toInt64 (x : Double) : Int64 :=
  if x.isNaN then 0 else Int64.ofIntClamp (x.units.tdiv unitsPerOne)

end Double

end SqlWindow
