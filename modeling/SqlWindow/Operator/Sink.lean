import SqlWindow.Action
import SqlWindow.Row

set_option autoImplicit false

/-! # Sinks

A sink receives the output rows of an operator one at a time. It may refuse a row with an
error.
-/

namespace SqlWindow

/-- A receiver of rows with states of type `ω`. -/
structure Sink (ω : Type) where
  /-- Receives a row. -/
  emit : Row → Action ω Unit

/-- The sink that keeps every row, the last one in front. -/
def Sink.collect : Sink (List Row) where
  emit row := modify (row :: ·)

end SqlWindow
