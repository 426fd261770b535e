import SqlWindow.Error
import SqlWindow.Value.Basic

set_option autoImplicit false

/-! # Running sums

The state of SUM and AVG. Integers and floats are summed apart. Integer sums wrap around at 64
bits, so that taking a value back undoes adding it. The sum is an integer as long as no float
is in the frame. NULL and values that are no numbers do not count.
-/

namespace SqlWindow

/-- The sum of the numbers in a frame. -/
structure RunningSum where
  /-- The sum of the integers, wrapped to 64 bits. -/
  integers : Int64 := 0
  /-- The sum of the floats. -/
  floats : Double := Double.zero false
  /-- The number of floats. -/
  floatCount : Nat := 0
  /-- The number of integers and floats. -/
  count : Nat := 0
deriving DecidableEq, Inhabited, Repr

namespace RunningSum

/-- The sum with a value added. -/
def add (s : RunningSum) : Value → RunningSum
  | .integer i => { s with integers := s.integers + i, count := s.count + 1 }
  | .float x =>
    { s with floats := s.floats.add x, floatCount := s.floatCount + 1, count := s.count + 1 }
  | _ => s

/-- The sum of floats after one has been taken back. Without floats it is zero again, whatever
rounding or a NaN has left behind. -/
def removeFloat (s : RunningSum) (x : Double) : RunningSum :=
  let remaining := s.floatCount - 1
  { s with
    floatCount := remaining
    floats := if remaining = 0 then Double.zero false else s.floats.sub x }

/-- The sum with a value taken back. -/
def remove (s : RunningSum) (v : Value) : Except Error RunningSum :=
  match v, s.count with
  | .integer i, count + 1 => .ok { s with integers := s.integers - i, count }
  | .float x, count + 1 => .ok { s.removeFloat x with count }
  | .integer _, 0 | .float _, 0 => .error (.internal "retract from an empty sum")
  | _, _ => .ok s

/-- The integer and the float sum together. -/
def toDouble (s : RunningSum) : Double := (Double.ofInt64 s.integers).add s.floats

/-- The sum; NULL without any number. -/
def total (s : RunningSum) : Value :=
  if s.count = 0 then .unknown
  else if 0 < s.floatCount then .float s.toDouble
  else .integer s.integers

/-- The mean; NULL without any number. -/
def mean (s : RunningSum) : Value :=
  if s.count = 0 then .unknown else .float (s.toDouble.div (Double.ofInt s.count))

end RunningSum

end SqlWindow
