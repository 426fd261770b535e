import SqlWindow.Frame.Held
import SqlWindow.Spec.Group

set_option autoImplicit false

/-! # Frames by row distance

A ROWS frame of row `i` holds the rows from `i + lower` to `i + upper`, as far as the partition
has them. A missing distance stands for the start or the end of the partition.
-/

namespace SqlWindow

/-- A frame between two row distances. -/
structure RowDistance (η : Type) where
  held : Held η
  lower : Option Int64
  upper : Option Int64
  /-- The number of rows in the partition. -/
  length : Nat := 0

namespace RowDistance

variable {η : Type} [Tally η]

/-- The row distance of a bound; none when it is unbounded. -/
def distance? : FrameBound → Except Error (Option Int64)
  | .unboundedPreceding | .unboundedFollowing => return none
  | .currentRow => return some 0
  | .distance (.literal (.integer k)) => return some k
  | bound => throw (.unexpectedFrameShape s!"ROWS bound {bound.display}")

/-- The frame between two bounds. -/
def ofBounds (tally : η) (lower upper : FrameBound) : Except Error (RowDistance η) := do
  let lower ← distance? lower
  let upper ← distance? upper
  return { held := { tally }, lower, upper }

/-- The frame at the start of a partition. -/
def prepare (f : RowDistance η) (length : Nat) : RowDistance η :=
  { f with held := f.held.prepare length, length }

/-- An integer held to the positions from 0 to `length`. -/
def clampPosition (length : Nat) (i : Int) : Nat := min i.toNat length

/-- The first row of the frame of row `index`, and the one behind its last. -/
def window (f : RowDistance η) (index : Nat) : Nat × Nat :=
  let lo := match f.lower with
    | none => 0
    | some k => clampPosition f.length (index + k.toInt)
  let hi := match f.upper with
    | none => f.length
    | some k => clampPosition f.length (index + k.toInt + 1)
  (lo, max lo hi)

/-- An action on the held rows. -/
def onHeld (x : Action (Held η × RowStore) Unit) : Action (RowDistance η × RowStore) Unit :=
  Action.onPart (fun s => (s.1.held, s.2)) (fun s h => ({ s.1 with held := h.1 }, h.2)) x

/-- The values for the row at a position. -/
def process (index : Nat) : Action (RowDistance η × RowStore) Row := do
  let (lo, hi) := (← get).1.window index
  onHeld (Held.slide lo hi)
  return Tally.values (← get).1.held.tally

end RowDistance

end SqlWindow
