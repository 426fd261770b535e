import SqlWindow.Frame.Tally
import SqlWindow.Store.RowStore

set_option autoImplicit false

/-! # Frames of one other row

LEAD and LAG look at the row a number of rows away from the current one. When the partition has
no such row, or the number is NULL, the default stands in.
-/

namespace SqlWindow

variable {σ : Type}

/-- The frame of one call of LEAD or LAG. -/
structure OtherRow (σ : Type) where
  tally : CallTally σ
  direction : Direction
  /-- How many rows away. -/
  offset : Operand
  /-- The number of rows in the partition. -/
  length : Nat := 0

namespace OtherRow

/-- The frame of a call. -/
def ofCall (c : Call) (registry : Registry σ) : Except Error (OtherRow σ) := do
  match c.lookup with
  | none => throw (.unexpectedFrameShape s!"offset frame for {c.display}")
  | some lookup =>
    let tally ← CallTally.ofCalls [c] registry
    return { tally, direction := lookup.direction, offset := lookup.offset }

/-- The frame at the start of a partition. -/
def prepare (f : OtherRow σ) (length : Nat) : OtherRow σ :=
  { f with tally := Tally.clear f.tally, length }

/-- The position that row `index` looks at, if the partition has it. -/
def target? (f : OtherRow σ) (index : Nat) (current : Row) : Except Error (Option Nat) := do
  match ← f.offset.eval current with
  | .integer k =>
    let target := index + k.toInt * f.direction.sign
    return if 0 ≤ target ∧ target < f.length then some target.toNat else none
  | .null _ => return none
  | v => throw (.typeConversion v.type.name "INTEGER row offset")

/-- An action on the tally. -/
def onTally (x : Action (CallTally σ) Unit) : Action (OtherRow σ × RowStore) Unit :=
  Action.onFirst (Action.onPart tally (fun f t => { f with tally := t }) x)

/-- The values for the row at a position. -/
def process (index : Nat) (current : Row) : Action (OtherRow σ × RowStore) Row := do
  match ← Action.ofExcept ((← get).1.target? index current) with
  | some target =>
    let row ← Action.onSecond (RowStore.row target)
    onTally (Tally.add row)
  | none => onTally (Tally.remove current)
  return Tally.values (← get).1.tally

end OtherRow

end SqlWindow
