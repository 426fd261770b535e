import SqlWindow.Frame.Tally
import SqlWindow.Spec.Group

set_option autoImplicit false

/-! # Frames that look at no later row

A frame that ends at the current row by position needs only the current row to move on. It
either starts at the beginning of the partition or holds the current row alone.
-/

namespace SqlWindow

/-- A frame up to the current row. -/
structure Forward (η : Type) where
  tally : η
  /-- The frame holds the current row alone. -/
  currentRowOnly : Bool

namespace Forward

variable {η : Type} [Tally η]

/-- The frame between two bounds. -/
def ofBounds (tally : η) (lower upper : FrameBound) : Forward η :=
  ⟨tally, lower == .currentRow && upper == .currentRow⟩

/-- The frame at the start of a partition; `length` is 0 when it is not known. -/
def prepare (f : Forward η) (length : Nat) : Forward η :=
  { f with tally := Tally.setWindowSize length (Tally.clear f.tally) }

/-- The values for the next row. -/
def process (current : Row) : Action (Forward η) Row := do
  modify fun f => if f.currentRowOnly then { f with tally := Tally.clear f.tally } else f
  Action.onPart tally (fun f t => { f with tally := t }) (Tally.add current)
  return Tally.values (← get).tally

end Forward

end SqlWindow
