import SqlWindow.Row.Keys
import SqlWindow.Value.Shift

set_option autoImplicit false

/-! # Edges of RANGE frames

An edge of a RANGE frame decides for each row of the partition whether it lies on the frame's
side of the edge, seen from the current row. The lower edge admits rows that are not before it,
the upper edge rows that are not after it, in the order of the sorted partition.
-/

namespace SqlWindow

/-- Which end of a frame an edge is. -/
inductive Side where
  | lower
  | upper
deriving DecidableEq, Repr

/-- Where an edge lies. -/
inductive EdgePlace where
  /-- At the end of the partition. -/
  | unbounded
  /-- At the current row's peers. -/
  | peers (sort : List SortKey)
  /-- At a distance from the current value of the first ordering field, counted in the
  direction of growing values. -/
  | distance (key : SortKey) (d : Value)
deriving DecidableEq, Repr

/-- An edge of a RANGE frame. -/
structure Edge where
  side : Side
  place : EdgePlace
deriving DecidableEq, Repr

namespace EdgePlace

/-- The place of a frame bound. Distances along a descending field count down, so they are
negated. -/
def ofBound (bound : FrameBound) (sort : List SortKey) : Except Error EdgePlace :=
  match bound with
  | .unboundedPreceding | .unboundedFollowing => return unbounded
  | .currentRow => return peers sort
  | .distance (.literal d) =>
    match sort with
    | [] => throw (.unexpectedFrameShape "RANGE offset without ordering")
    | key :: _ => return distance key (← if key.ascending then pure d else d.negate)
  | .distance (.field index) => throw (.unexpectedFrameShape s!"RANGE bound on field ${index}")

/-- Where a candidate row lies relative to a place, seen from the current row; none when the
place tells nothing about it. Between NULL and a value no distance counts, and NULL lies at
every distance from NULL. -/
def position? (place : EdgePlace) (current candidate : Row) : Except Error (Option Ordering) :=
  match place with
  | unbounded => return none
  | peers sort => return some (← Row.order sort candidate current)
  | distance key d => do
    let x ← Row.field current key.index
    let y ← Row.field candidate key.index
    match x.isNull, y.isNull with
    | true, true => return none
    | false, false => return some (key.order y (← x.shift d))
    | _, _ => return some (key.order y x)

end EdgePlace

namespace Edge

/-- The edge of a frame bound. -/
def ofBound (side : Side) (bound : FrameBound) (sort : List SortKey) : Except Error Edge :=
  return ⟨side, ← EdgePlace.ofBound bound sort⟩

/-- The side of an edge that rows at a position lie on belongs to the frame. -/
def isInside (side : Side) : Ordering → Bool
  | .lt => side == .upper
  | .eq => true
  | .gt => side == .lower

/-- A candidate row lies on the frame's side of the edge, seen from the current row. -/
def admits (e : Edge) (current candidate : Row) : Except Error Bool := do
  match ← e.place.position? current candidate with
  | none => return true
  | some position => return isInside e.side position

end Edge

end SqlWindow
