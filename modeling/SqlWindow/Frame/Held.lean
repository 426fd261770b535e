import SqlWindow.Frame.Tally
import SqlWindow.Store.RowStore

set_option autoImplicit false

/-! # Held rows

A moving frame keeps a tally over a run of consecutive rows of the partition. The run only
moves forward: rows that leave it at the front are given back, rows that enter it at the end
are taken in. When nothing of the old run is left, the tally starts anew.
-/

namespace SqlWindow

/-- A tally over the rows from position `start` up to but without `stop`. -/
structure Held (η : Type) where
  tally : η
  start : Nat := 0
  stop : Nat := 0

namespace Held

variable {η : Type} [Tally η]

/-- The tally of a partition of some length, before any of its rows. -/
def prepare (h : Held η) (length : Nat) : Held η :=
  { tally := Tally.setWindowSize length (Tally.clear h.tally) }

/-- An action on the tally. -/
def onTally (x : Action η Unit) : Action (Held η × RowStore) Unit :=
  Action.onFirst (Action.onPart tally (fun h t => { h with tally := t }) x)

/-- Gives the first row back. -/
def dropRow : Action (Held η × RowStore) Unit := do
  let row ← Action.onSecond (RowStore.row (← get).1.start)
  onTally (Tally.remove row)
  modify fun (h, store) => ({ h with start := h.start + 1 }, store)

/-- Takes the next row in. -/
def takeRow : Action (Held η × RowStore) Unit := do
  let row ← Action.onSecond (RowStore.row (← get).1.stop)
  onTally (Tally.add row)
  modify fun (h, store) => ({ h with stop := h.stop + 1 }, store)

/-- Gives the first `count` rows back. -/
def dropRows : (count : Nat) → Action (Held η × RowStore) Unit
  | 0 => return
  | count + 1 => do
    dropRow
    dropRows count

/-- Takes the next `count` rows in. -/
def takeRows : (count : Nat) → Action (Held η × RowStore) Unit
  | 0 => return
  | count + 1 => do
    takeRow
    takeRows count

/-- The tally with no row held, in front of position `lo`. -/
def restart (h : Held η) (lo : Nat) : Held η where
  tally := if h.start < h.stop then Tally.clear h.tally else h.tally
  start := lo
  stop := lo

/-- Moves the run on to the rows from `lo` up to but without `hi`. -/
def slide (lo hi : Nat) : Action (Held η × RowStore) Unit := do
  let h := (← get).1
  if h.stop ≤ lo then modify fun (h, store) => (h.restart lo, store)
  else dropRows (lo - h.start)
  takeRows (hi - (← get).1.stop)

end Held

end SqlWindow
