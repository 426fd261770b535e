import SqlWindow.Frame.Basic
import SqlWindow.Operator.Sink

set_option autoImplicit false

/-! # Evaluation by partitions

The rows of a partition are collected in a store. When a row of another partition arrives, or
the input ends, the frames are evaluated over the store and every row is answered in order.
After that the store is emptied, whether the evaluation went well or not.
-/

namespace SqlWindow

/-- An operator that answers whole partitions. -/
structure ByPartition (σ : Type) where
  frames : List (Frame σ)
  /-- The partition fields. -/
  partition : List Nat
  /-- The rows of the partition so far. -/
  store : RowStore
  /-- The row that arrived last. -/
  last : Option Row := none

namespace ByPartition

variable {σ ω : Type}

/-- An action on the store. -/
def onStore {α : Type} (x : Action RowStore α) : Action (ByPartition σ × ω) α :=
  Action.onFirst (Action.onPart store (fun op store => { op with store }) x)

/-- An action on each frame in turn beside the store. -/
def onFrames {α : Type} (x : Action (Frame σ × RowStore) α) :
    Action (ByPartition σ × ω) (List α) :=
  Action.onFirst (Action.onPart (fun op => (op.frames, op.store))
    (fun op s => { op with frames := s.1, store := s.2 }) (Action.onEach x))

/-- Answers the row at a position of the store. -/
def answer (sink : Sink ω) (index : Nat) : Action (ByPartition σ × ω) Unit := do
  let row ← onStore (RowStore.row index)
  let values ← onFrames (Frame.process index row)
  Action.onSecond (sink.emit (row ++ values.flatten))

/-- Answers all rows of the store. -/
def evaluate (sink : Sink ω) : Action (ByPartition σ × ω) Unit := do
  let length := (← get).1.store.length
  discard (onFrames Frame.prepare)
  (List.range length).forM (answer sink)

/-- Answers the partition in the store, if there is one, and empties the store. -/
def flush (sink : Sink ω) : Action (ByPartition σ × ω) Unit := do
  modify fun (op, out) => ({ op with last := none }, out)
  if (← get).1.store.isEmpty then return
  else
    (evaluate sink).andFinally fun (op, out) => ({ op with store := op.store.release }, out)

/-- The row belongs to another partition than the one before. -/
def startsPartition (op : ByPartition σ) (row : Row) : Except Error Bool :=
  match op.last with
  | some last => return !(← Row.samePartition op.partition last row)
  | none => return false

/-- Takes an input row, after answering the partition before it if it is the first of its
own. -/
def push (sink : Sink ω) (row : Row) : Action (ByPartition σ × ω) Unit := do
  let starts ← Action.ofExcept ((← get).1.startsPartition row)
  if starts then flush sink
  modify fun (op, out) => ({ op with last := some row }, out)
  onStore (RowStore.append row)

/-- Ends the input. -/
def finish (sink : Sink ω) : Action (ByPartition σ × ω) Unit := flush sink

end ByPartition

end SqlWindow
