import SqlWindow.Action
import SqlWindow.Spec.Call

set_option autoImplicit false

/-! # Tallies

A tally takes the rows of a frame in, gives rows back out that leave the frame, and answers
with one value for each call. Frames work with any tally; the one they are built with runs one
accumulator for each call.
-/

namespace SqlWindow

/-- What frames do with a tally of type `η`. -/
class Tally (η : Type) where
  /-- Takes a row in. -/
  add : Row → Action η Unit
  /-- Takes a row back. For a lookup this is the current row, on which the default is
  evaluated. -/
  remove : Row → Action η Unit
  /-- The value of each call. -/
  values : η → Row
  /-- Forgets all rows. -/
  clear : η → η
  /-- Takes in the number of rows in the partition. -/
  setWindowSize : Nat → η → η

variable {σ : Type}

/-- The accumulator of one call, with what it is fed. -/
structure Slot (σ : Type) where
  accumulator : Accumulator σ
  /-- The aggregated argument. -/
  value : Option Operand
  /-- The default of a lookup. -/
  fallback : Option Operand

/-- What a call without arguments is fed for each row. -/
def rowMarker : Value := .boolean true

namespace Slot

/-- The slot of a call: its function, configured with its literal arguments. -/
def ofCall (registry : Registry σ) (c : Call) : Except Error (Slot σ) := do
  let a ← registry.create c.name
  let (outcome, a) := (Accumulator.configure c.literals).outcome a
  outcome
  return ⟨a, c.value?, c.lookup.map Lookup.default⟩

/-- The value of an operand on a row, or the marker when there is none. -/
def feed (operand : Option Operand) (row : Row) : Except Error Value :=
  match operand with
  | some operand => operand.eval row
  | none => .ok rowMarker

/-- Takes a row in. -/
def add (row : Row) : Action (Slot σ) Unit := do
  let v ← Action.ofExcept (feed (← get).value row)
  modify fun s => { s with accumulator := s.accumulator.accumulate v }

/-- Takes a row back; a lookup is fed its default. -/
def remove (row : Row) : Action (Slot σ) Unit := do
  let s ← get
  let v ← Action.ofExcept (feed (s.fallback.or s.value) row)
  Action.onPart accumulator (fun s a => { s with accumulator := a }) (Accumulator.retract v)

end Slot

/-- The accumulators of some calls. -/
structure CallTally (σ : Type) where
  slots : List (Slot σ)

namespace CallTally

/-- The tally of some calls. -/
def ofCalls (calls : List Call) (registry : Registry σ) : Except Error (CallTally σ) :=
  return ⟨← calls.mapM (Slot.ofCall registry)⟩

/-- An action on each slot in turn. When one fails, those before it stay changed. -/
def onSlots (x : Action (Slot σ) Unit) : Action (CallTally σ) Unit := do
  discard <| Action.onPart (fun t => (t.slots, ())) (fun _ s => ⟨s.1⟩)
    (Action.onEach (Action.onFirst x))

/-- The number of calls. -/
def arity (t : CallTally σ) : Nat := t.slots.length

/-- The tally with every accumulator changed. -/
def map (t : CallTally σ) (f : Accumulator σ → Accumulator σ) : CallTally σ :=
  ⟨t.slots.map fun s => { s with accumulator := f s.accumulator }⟩

instance : Tally (CallTally σ) where
  add row := onSlots (Slot.add row)
  remove row := onSlots (Slot.remove row)
  values t := t.slots.map fun s => s.accumulator.result
  clear t := t.map Accumulator.reset
  setWindowSize size t := t.map (Accumulator.setWindowSize size)

end CallTally

end SqlWindow
