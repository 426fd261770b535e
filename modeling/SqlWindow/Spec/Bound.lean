import SqlWindow.Spec.Operand

set_option autoImplicit false

/-! # Frame bounds

A frame runs from a lower to an upper bound. A bound at a distance counts rows (ROWS) or steps
of the first ordering field (RANGE); negative distances lie before the current row.
-/

namespace SqlWindow

/-- What a frame's distances count. -/
inductive FrameUnit where
  | rows
  | range
deriving DecidableEq, Repr

/-- The SQL keyword of a unit. -/
def FrameUnit.display : FrameUnit → String
  | .rows => "ROWS"
  | .range => "RANGE"

/-- One end of a frame. -/
inductive FrameBound where
  | currentRow
  | unboundedPreceding
  | unboundedFollowing
  /-- At a signed distance from the current row. -/
  | distance (d : Operand)
deriving DecidableEq, Repr

namespace FrameBound

instance : Inhabited FrameBound := ⟨currentRow⟩

/-- `n PRECEDING`. The least integer has no opposite and becomes the greatest. -/
def preceding (n : Int64) : FrameBound :=
  distance (.literal (.integer (Int64.ofIntClamp (-n.toInt))))

/-- `n FOLLOWING`. -/
def following (n : Int64) : FrameBound := distance (.literal (.integer n))

/-- A signed distance of any type. -/
def offset (d : Value) : FrameBound := distance (.literal d)

/-- The literal distance of a bound. -/
def literal? : FrameBound → Option Value
  | distance d => d.literal?
  | _ => none

/-- Equality of bounds, with literal distances compared as keys. -/
def same : FrameBound → FrameBound → Bool
  | currentRow, currentRow => true
  | unboundedPreceding, unboundedPreceding => true
  | unboundedFollowing, unboundedFollowing => true
  | distance a, distance b => a.same b
  | _, _ => false

/-- The text of a bound. Negative numbers are written as what precedes, anything else as what
follows. -/
def display : FrameBound → String
  | currentRow => "CURRENT ROW"
  | unboundedPreceding => "UNBOUNDED PRECEDING"
  | unboundedFollowing => "UNBOUNDED FOLLOWING"
  | distance d =>
    match d with
    | .literal (.integer n) =>
      if n < 0 then s!"{n.toInt.natAbs} PRECEDING" else s!"{d.display} FOLLOWING"
    | .literal (.float x) =>
      if x.order (Double.zero false) = .lt then s!"{x.neg.distanceText} PRECEDING"
      else s!"{d.display} FOLLOWING"
    | d => s!"{d.display} FOLLOWING"

end FrameBound

end SqlWindow
