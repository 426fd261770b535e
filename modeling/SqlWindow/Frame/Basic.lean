import SqlWindow.Frame.Forward
import SqlWindow.Frame.KeyDistance
import SqlWindow.Frame.OtherRow
import SqlWindow.Frame.RowDistance
import SqlWindow.Frame.WholePartition
import SqlWindow.Spec.Mode

set_option autoImplicit false

/-! # Frames

A group is evaluated by one frame, a group of lookups by one frame for each call. A frame is
prepared for each partition and then asked for the values of its rows in order.

| mode          | shape                           | frame            |
|---------------|---------------------------------|------------------|
| insensitive   |                                 | `WholePartition` |
| row and range | unbounded                       | `WholePartition` |
| row           | current row                     | `Forward`        |
| row           | growing up to the current row   | `Forward`        |
| row           | otherwise                       | `RowDistance`    |
| range         | otherwise                       | `KeyDistance`    |
| offset        |                                 | `OtherRow`       |
-/

namespace SqlWindow

/-- A frame of calls with accumulators. -/
inductive Frame (σ : Type) where
  | whole (f : WholePartition (CallTally σ))
  | forward (f : Forward (CallTally σ))
  | rowDistance (f : RowDistance (CallTally σ))
  | keyDistance (f : KeyDistance (CallTally σ))
  | otherRow (f : OtherRow σ)

namespace Frame

variable {σ : Type}

/-- The name of the kind of frame. -/
def name : Frame σ → String
  | whole _ => "unbounded"
  | forward f => if f.currentRowOnly then "current-row" else "running"
  | rowDistance _ => "row"
  | keyDistance _ => "range"
  | otherRow _ => "offset"

/-! ## The frames of a group -/

/-- The frame of a ROWS group. -/
def ofRows (tally : CallTally σ) (lower upper : FrameBound) :
    FrameShape → Except Error (Frame σ)
  | .unbounded => return whole { tally }
  | .currentRow => return forward (Forward.ofBounds tally lower upper)
  | shape => do
    if shape = .growing ∧ upper = .currentRow then
      return forward (Forward.ofBounds tally lower upper)
    else return rowDistance (← RowDistance.ofBounds tally lower upper)

/-- The frame of a RANGE group. -/
def ofRange (tally : CallTally σ) (sort : List SortKey) (lower upper : FrameBound) :
    FrameShape → Except Error (Frame σ)
  | .unbounded => return whole { tally }
  | .currentRow =>
    throw (.unexpectedFrameShape s!"RANGE frame classified as {FrameShape.currentRow.display}")
  | _ => return keyDistance (← KeyDistance.ofBounds tally sort lower upper)

/-- The frames of a group. -/
def ofGroup (g : WindowGroup) (registry : Registry σ) : Except Error (List (Frame σ)) := do
  match g.mode with
  | .offset => g.calls.mapM fun c => otherRow <$> OtherRow.ofCall c registry
  | .insensitive =>
    let tally ← CallTally.ofCalls g.calls registry
    return [whole { tally }]
  | .row =>
    let tally ← CallTally.ofCalls g.calls registry
    let shape ← FrameShape.ofBounds g.unit g.lower g.upper
    return [← ofRows tally g.lower g.upper shape]
  | .range =>
    let tally ← CallTally.ofCalls g.calls registry
    let shape ← FrameShape.ofBounds g.unit g.lower g.upper
    return [← ofRange tally g.sort g.lower g.upper shape]

/-! ## Evaluation -/

/-- An action on a frame of one kind, as an action on a frame. -/
def within {φ α : Type} (f : φ) (wrap : φ → Frame σ) (x : Action (φ × RowStore) α) :
    Action (Frame σ × RowStore) α :=
  Action.onPart (fun s => (f, s.2)) (fun _ s => (wrap s.1, s.2)) x

/-- Starts a new partition, whose rows are in the store. -/
def prepare : Action (Frame σ × RowStore) Unit := do
  let (frame, store) ← get
  match frame with
  | whole f => within f whole WholePartition.prepare
  | forward f => set (forward (f.prepare store.length), store)
  | rowDistance f => set (rowDistance (f.prepare store.length), store)
  | keyDistance f => set (keyDistance (f.prepare store.length), store)
  | otherRow f => set (otherRow (f.prepare store.length), store)

/-- The values for the row at a position, which is the current row. -/
def process (index : Nat) (current : Row) : Action (Frame σ × RowStore) Row := do
  match (← get).1 with
  | whole f => return f.values
  | forward f => within f forward (Action.onFirst (Forward.process current))
  | rowDistance f => within f rowDistance (RowDistance.process index)
  | keyDistance f => within f keyDistance (KeyDistance.process current)
  | otherRow f => within f otherRow (OtherRow.process index current)

end Frame

end SqlWindow
