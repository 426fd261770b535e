import SqlWindow.Error
import SqlWindow.Timestamp.Shift
import SqlWindow.Value.Basic

set_option autoImplicit false

/-! # Distances between values

A RANGE frame ends at a distance from the current ordering value. Numbers move by numbers,
timestamps by whole milliseconds, and NULL stays where it is. Integers and timestamps stop at
the end of their range.
-/

namespace SqlWindow

namespace Value

/-- The value at a signed distance from another one. -/
def shift : Value → Value → Except Error Value
  | null type, _ => .ok (null type)
  | integer a, integer d => .ok (integer (Int64.ofIntClamp (a.toInt + d.toInt)))
  | integer a, float d => .ok (float ((Double.ofInt64 a).add d))
  | float a, integer d => .ok (float (a.add (Double.ofInt64 d)))
  | float a, float d => .ok (float (a.add d))
  | timestamp t, integer d => .ok (timestamp (t.shift d.toInt))
  | v, d => .error (.typeConversion s!"{v.type.name} + {d.type.name}" v.type.name)

/-- The distance in the other direction. The least integer becomes the greatest. -/
def negate : Value → Except Error Value
  | null type => .ok (null type)
  | integer i => .ok (integer (Int64.ofIntClamp (-i.toInt)))
  | float x => .ok (float x.neg)
  | v => .error (.typeConversion s!"-{v.type.name}" "numeric distance")

end Value

end SqlWindow
