import SqlWindow.Double.Shortest

set_option autoImplicit false

/-! # Text of doubles

A double is written with its shortest digits, without a fraction when it is whole. Values
are positional from `0.0001` up to below `10¹⁶`; outside of that range a digit, the fraction
if there is one and `e` with the exponent are written. The distances in frame bounds are
positional at every size.
-/

namespace SqlWindow

namespace Double

/-- Which powers of ten of the leading digit are written positionally; all when there is no
limit. -/
structure Layout where
  /-- The range `(least, greatest)` of positional leading exponents. -/
  positional? : Option (Int × Int)

/-- Values as results show them. -/
def Layout.value : Layout := ⟨some (-4, 15)⟩

/-- Distances as frame bounds show them. -/
def Layout.distance : Layout := ⟨none⟩

/-- The exponent is inside the positional range. -/
def Layout.isPositional (l : Layout) (leading : Int) : Bool :=
  match l.positional? with
  | none => true
  | some (least, greatest) => decide (least ≤ leading) && decide (leading ≤ greatest)

/-- The decimal digits of a number. -/
def decimalDigits (n : Nat) : List Char := Nat.toDigits 10 n

/-- Digits and point, with zeros filling the gap between them. -/
def positionalText (d : Decimal) : List Char :=
  let ds := decimalDigits d.digits
  if 0 ≤ d.exponent then ds ++ List.replicate d.exponent.toNat '0'
  else
    let places := (-d.exponent).toNat
    if places < ds.length then
      ds.take (ds.length - places) ++ '.' :: ds.drop (ds.length - places)
    else '0' :: '.' :: (List.replicate (places - ds.length) '0' ++ ds)

/-- One digit, the others behind a point, and the exponent. -/
def exponentText (d : Decimal) (leading : Int) : List Char :=
  let ds := decimalDigits d.digits
  let fraction := ds.drop 1
  ds.take 1 ++ (if fraction.isEmpty then [] else '.' :: fraction) ++
    'e' :: (toString leading).toList

/-- The digits of a positive finite magnitude in a layout. -/
def magnitudeText (l : Layout) (magnitude : Nat) : List Char :=
  let d := shortest magnitude
  let leading := d.exponent + (decimalDigits d.digits).length - 1
  if l.isPositional leading then positionalText d else exponentText d leading

/-- The text of a double in a layout. -/
def format (l : Layout) (x : Double) : String :=
  if x.isNaN then "NaN"
  else
    let body :=
      if x.isInfinite then "inf".toList
      else if x.magnitude = 0 then ['0']
      else magnitudeText l x.magnitude
    String.ofList (if x.isNegative then '-' :: body else body)

/-- The text of a double as a value. -/
def text (x : Double) : String := x.format .value

/-- The text of a double as a distance. -/
def distanceText (x : Double) : String := x.format .distance

end Double

end SqlWindow
