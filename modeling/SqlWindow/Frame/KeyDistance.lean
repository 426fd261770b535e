import SqlWindow.Frame.Edge
import SqlWindow.Frame.Held

set_option autoImplicit false

/-! # Frames by key distance

A RANGE frame holds the rows between two edges, which are found by looking at the ordering
values of the rows. As the partition is sorted, both edges only move forward from row to row.
-/

namespace SqlWindow

/-- A frame between two edges. -/
structure KeyDistance (η : Type) where
  held : Held η
  lower : Edge
  upper : Edge
  /-- The number of rows in the partition. -/
  length : Nat := 0
  /-- The first row that the lower edge admits. -/
  lo : Nat := 0
  /-- The row behind those that the upper edge admits. -/
  hi : Nat := 0

namespace KeyDistance

variable {η : Type} [Tally η]

/-- The frame between two bounds. -/
def ofBounds (tally : η) (sort : List SortKey) (lower upper : FrameBound) :
    Except Error (KeyDistance η) := do
  let lower ← Edge.ofBound .lower lower sort
  let upper ← Edge.ofBound .upper upper sort
  return { held := { tally }, lower, upper }

/-- The frame at the start of a partition. -/
def prepare (f : KeyDistance η) (length : Nat) : KeyDistance η :=
  { f with held := f.held.prepare length, length, lo := 0, hi := 0 }

/-- Moves the lower edge on past rows it does not admit, by at most `steps` rows. -/
def seekLower (current : Row) : (steps : Nat) → Action (KeyDistance η × RowStore) Unit
  | 0 => return
  | steps + 1 => do
    let f := (← get).1
    let candidate ← Action.onSecond (RowStore.row f.lo)
    if ← Action.ofExcept (f.lower.admits current candidate) then return
    else
      modify fun (f, store) => ({ f with lo := f.lo + 1 }, store)
      seekLower current steps

/-- Moves the upper edge on past rows it admits, by at most `steps` rows. -/
def seekUpper (current : Row) : (steps : Nat) → Action (KeyDistance η × RowStore) Unit
  | 0 => return
  | steps + 1 => do
    let f := (← get).1
    let candidate ← Action.onSecond (RowStore.row f.hi)
    if ← Action.ofExcept (f.upper.admits current candidate) then
      modify fun (f, store) => ({ f with hi := f.hi + 1 }, store)
      seekUpper current steps
    else return

/-- An action on the held rows. -/
def onHeld (x : Action (Held η × RowStore) Unit) : Action (KeyDistance η × RowStore) Unit :=
  Action.onPart (fun s => (s.1.held, s.2)) (fun s h => ({ s.1 with held := h.1 }, h.2)) x

/-- The values for the next row. -/
def process (current : Row) : Action (KeyDistance η × RowStore) Row := do
  let f := (← get).1
  seekLower current (f.length - f.lo)
  seekUpper current (f.length - f.hi)
  let f := (← get).1
  onHeld (Held.slide f.lo (max f.lo f.hi))
  return Tally.values (← get).1.held.tally

end KeyDistance

end SqlWindow
