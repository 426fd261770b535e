import SqlWindow.Frame.Tally
import SqlWindow.Store.RowStore

set_option autoImplicit false

/-! # Frames over the whole partition

Every row has the same frame, so the values are computed once and repeated.
-/

namespace SqlWindow

/-- A frame over the whole partition. -/
structure WholePartition (η : Type) where
  tally : η
  /-- The values of the partition. -/
  values : Row := []

namespace WholePartition

variable {η : Type} [Tally η]

/-- Takes in the row at a position. -/
def takeRow (index : Nat) : Action (WholePartition η × RowStore) Unit := do
  let row ← Action.onSecond (RowStore.row index)
  Action.onFirst (Action.onPart tally (fun f t => { f with tally := t }) (Tally.add row))

/-- Takes in all rows of the partition. -/
def prepare : Action (WholePartition η × RowStore) Unit := do
  let length := (← get).2.length
  modify fun (f, store) =>
    ({ f with tally := Tally.setWindowSize length (Tally.clear f.tally) }, store)
  (List.range length).forM takeRow
  modify fun (f, store) => ({ f with values := Tally.values f.tally }, store)

end WholePartition

end SqlWindow
