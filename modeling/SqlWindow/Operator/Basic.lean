import SqlWindow.Operator.ByPartition
import SqlWindow.Operator.RowByRow
import SqlWindow.Spec.Check

set_option autoImplicit false

/-! # Window operators

An operator evaluates a specification over input sorted by the partition fields and the
ordering of the last group. Every input row comes out once, in its place, followed by the
values of all calls in the order in which they are declared.
-/

namespace SqlWindow

/-- An operator for a specification. -/
inductive WindowOperator (σ : Type) where
  /-- No group needs complete partitions. -/
  | rowByRow (op : RowByRow σ)
  | byPartition (op : ByPartition σ)

namespace WindowOperator

variable {σ ω : Type}

/-! ## Building -/

/-- The frame of a group that needs only the current row to move on. -/
def forwardFrame (registry : Registry σ) (g : WindowGroup) :
    Except Error (Forward (CallTally σ)) :=
  return Forward.ofBounds (← CallTally.ofCalls g.calls registry) g.lower g.upper

/-- The operator of a specification over fields of the given types. `canSpill` tells whether a
spill file can be created where the options want it. -/
def ofSpec (spec : WindowSpec) (types : List DataType) (options : Options) (canSpill : Bool)
    (registry : Registry σ) : Except Error (WindowOperator σ) := do
  spec.check types registry
  if spec.needsBuffering registry then
    let frames ← spec.groups.mapM (Frame.ofGroup · registry)
    return byPartition
      { frames := frames.flatten, partition := spec.partition, store := { options, canSpill } }
  else
    let frames ← spec.groups.mapM (forwardFrame registry)
    return rowByRow { frames, partition := spec.partition }

/-- The operator collects partitions. -/
def isBuffered : WindowOperator σ → Bool
  | rowByRow _ => false
  | byPartition _ => true

/-! ## Running -/

/-- An action on an operator of one kind, as an action on an operator. -/
def within {φ α : Type} (op : φ) (wrap : φ → WindowOperator σ) (x : Action (φ × ω) α) :
    Action (WindowOperator σ × ω) α :=
  Action.onPart (fun s => (op, s.2)) (fun _ s => (wrap s.1, s.2)) x

/-- Takes an input row. -/
def push (sink : Sink ω) (row : Row) : Action (WindowOperator σ × ω) Unit := do
  match (← get).1 with
  | rowByRow op => within op rowByRow (RowByRow.push sink row)
  | byPartition op => within op byPartition (ByPartition.push sink row)

/-- Ends the input; what is still held comes out. -/
def finish (sink : Sink ω) : Action (WindowOperator σ × ω) Unit := do
  match (← get).1 with
  | rowByRow op => within op rowByRow RowByRow.finish
  | byPartition op => within op byPartition (ByPartition.finish sink)

/-- Takes a whole input and ends it. -/
def run (sink : Sink ω) (input : List Row) : Action (WindowOperator σ × ω) Unit := do
  input.forM (push sink)
  finish sink

/-- The output for a whole input. After an error there is none, and the operator is left as the
failing step left it. -/
def execute (input : List Row) : Action (WindowOperator σ) (List Row) := fun op =>
  match run Sink.collect input (op, []) with
  | .ok () (op, out) => .ok out.reverse op
  | .error e (op, _) => .error e op

end WindowOperator

end SqlWindow
