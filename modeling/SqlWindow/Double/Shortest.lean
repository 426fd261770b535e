import SqlWindow.Double.Basic

set_option autoImplicit false

/-! # Shortest decimal digits

The decimal digits a double is written with: as few as still determine the double, and of
the decimals with that many digits the nearest one; of two equally near, the larger.

A double stands for every real that rounds to it. That interval reaches half way to the two
neighbouring doubles, ends included when the fraction is even. A decimal grid of some digit
count has a point in the interval exactly when one of the two grid points around the double
lies in it, so each digit count is settled by looking at those two.
-/

namespace SqlWindow

namespace Double

/-- A positive decimal number: `digits · 10 ^ exponent`. -/
structure Decimal where
  /-- The digits, as one number. -/
  digits : Nat
  /-- The power of ten the digits are counted in. -/
  exponent : Int
deriving DecidableEq, Repr

/-- The same number with the zeros at the end of its digits moved into the exponent; at most
`fuel` of them. -/
def Decimal.strip : Nat → Decimal → Decimal
  | 0, d => d
  | fuel + 1, d =>
    if d.digits % 10 = 0 then Decimal.strip fuel ⟨d.digits / 10, d.exponent + 1⟩ else d

/-- The power of ten of the leading decimal digit of a positive magnitude. Every positive
double is at least `10⁻³²⁴`, so the digits are counted on the value times `10³²⁴`. -/
def leadingExponent (magnitude : Nat) : Int :=
  ((Nat.toDigits 10 (unitsOfMagnitude magnitude * Nat.pow 10 324 / unitsPerOne)).length : Int) - 325

/-- The nearer of the two grid points around the double that rounds back to it, on the grid
of decimals with `count` significant digits; none when neither does. All is measured in
half units of the double, with both sides of the grid brought to whole numbers. -/
def gridPoint? (magnitude : Nat) (leading : Int) (count : Nat) : Option Decimal :=
  let places := (count : Int) - 1 - leading
  let up := Nat.pow 10 places.toNat
  let cell := 2 * unitsPerOne * Nat.pow 10 (-places).toNat
  let value := 2 * unitsOfMagnitude magnitude * up
  let low := (unitsOfMagnitude (magnitude - 1) + unitsOfMagnitude magnitude) * up
  let high := (unitsOfMagnitude magnitude + unitsOfMagnitude (magnitude + 1)) * up
  let closed := magnitude % 2 = 0
  let below := value / cell
  let belowFits := low < below * cell ∨ (closed ∧ below * cell = low)
  let aboveFits := (below + 1) * cell < high ∨ (closed ∧ (below + 1) * cell = high)
  let aboveNearer := cell ≤ 2 * (value % cell)
  if aboveFits ∧ (aboveNearer ∨ ¬ belowFits) then some ⟨below + 1, -places⟩
  else if belowFits then some ⟨below, -places⟩
  else none

/-- The shortest decimal of a positive finite magnitude. Seventeen digits always determine a
double; should none of these grids answer, the exact value stands. -/
def shortest (magnitude : Nat) : Decimal :=
  let leading := leadingExponent magnitude
  match (List.range 17).findSome? fun k => gridPoint? magnitude leading (k + 1) with
  | some d => d.strip 20
  | none => ⟨unitsOfMagnitude magnitude * Nat.pow 5 1074, -1074⟩

end Double

end SqlWindow
