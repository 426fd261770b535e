import SqlWindow.Frame.Forward
import SqlWindow.Operator.Sink
import SqlWindow.Row.Keys

set_option autoImplicit false

/-! # Evaluation row by row

When no frame looks past the current row, every input row is answered at once. Nothing is kept
but the accumulators and the last row, by which the start of a partition is seen.
-/

namespace SqlWindow

/-- An operator that answers each row at once. -/
structure RowByRow (σ : Type) where
  frames : List (Forward (CallTally σ))
  /-- The partition fields. -/
  partition : List Nat
  /-- The row before. -/
  last : Option Row := none

namespace RowByRow

variable {σ ω : Type}

/-- The row starts a partition. -/
def startsPartition (op : RowByRow σ) (row : Row) : Except Error Bool :=
  match op.last with
  | some last => return !(← Row.samePartition op.partition last row)
  | none => return true

/-- The operator at the start of a partition, whose length is not known. -/
def prepare (op : RowByRow σ) : RowByRow σ :=
  { op with frames := op.frames.map (·.prepare 0) }

/-- The values of all frames for a row. -/
def values (row : Row) : Action (RowByRow σ) (List Row) :=
  Action.onPart (fun op => (op.frames, ())) (fun op s => { op with frames := s.1 })
    (Action.onEach (Action.onFirst (Forward.process row)))

/-- Takes an input row and answers it. -/
def push (sink : Sink ω) (row : Row) : Action (RowByRow σ × ω) Unit := do
  let starts ← Action.ofExcept ((← get).1.startsPartition row)
  if starts then modify fun (op, out) => (op.prepare, out)
  let values ← Action.onFirst (RowByRow.values row)
  modify fun (op, out) => ({ op with last := some row }, out)
  Action.onSecond (sink.emit (row ++ values.flatten))

/-- Ends the input. -/
def finish : Action (RowByRow σ × ω) Unit :=
  modify fun (op, out) => ({ op with last := none }, out)

end RowByRow

end SqlWindow
