import SqlWindow.Function.Registry
import SqlWindow.Spec.Operand

set_option autoImplicit false

/-! # Calls

A call names a function and its arguments. Calls of LEAD and LAG also know in which direction
they look, how far, and what stands in for a row that is not there.
-/

namespace SqlWindow

/-- Where LEAD and LAG look. -/
inductive Direction where
  /-- To the rows that follow. -/
  | forward
  /-- To the rows before. -/
  | backward
deriving DecidableEq, Repr

/-- What a step in a direction adds to a position. -/
def Direction.sign : Direction → Int
  | .forward => 1
  | .backward => -1

/-- The row that a call of LEAD or LAG looks at. -/
structure Lookup where
  direction : Direction
  /-- How many rows away; a literal or an integral field. -/
  offset : Operand
  /-- The value when there is no such row. -/
  default : Operand
deriving DecidableEq, Repr

/-- A call of a function. -/
structure Call where
  /-- The upper-case name of the function. -/
  name : String
  /-- The arguments; the first one is the aggregated value. -/
  arguments : List Operand
  /-- The result depends on the number of rows in the window. -/
  sizeSensitive : Bool
  /-- Present for LEAD and LAG. -/
  lookup : Option Lookup
deriving DecidableEq, Repr

namespace Call

/-! ## Making calls -/

/-- The direction that a function name implies. -/
def direction? : String → Option Direction
  | "LEAD" => some .forward
  | "LAG" => some .backward
  | _ => none

/-- A built-in function of this name depends on the number of rows in the window. -/
def isSizeSensitiveName (name : String) : Bool :=
  match (Registry.builtin : Registry Empty).find? name with
  | some a => a.isSizeSensitive
  | none => false

/-- A call of a function by name. LEAD and LAG take the value, the offset (1 if absent) and the
default (NULL if absent). -/
def make (name : String) (arguments : List Operand) : Call :=
  let name := uppercase name
  { name, arguments
    sizeSensitive := isSizeSensitiveName name
    lookup := (direction? name).map fun direction =>
      { direction
        offset := arguments.getD 1 (.literal (.integer 1))
        default := arguments.getD 2 (.literal .unknown) } }

instance : Inhabited Call := ⟨make "COUNT" []⟩

/-- `COUNT(*)`. -/
def countRows : Call := make "COUNT" []

/-- A call with one field for its argument. -/
def onField (name : String) (index : Nat) : Call := make name [.field index]

/-- `LEAD(value, offset, default)`. -/
def lead (value : Nat) (offset default : Operand) : Call :=
  make "LEAD" [.field value, offset, default]

/-- `LAG(value, offset, default)`. -/
def lag (value : Nat) (offset default : Operand) : Call :=
  make "LAG" [.field value, offset, default]

/-! ## Observers -/

/-- The call looks up another row. -/
def isLookup (c : Call) : Bool := c.lookup.isSome

/-- The aggregated argument; none for calls that only count rows. -/
def value? (c : Call) : Option Operand := c.arguments.head?

/-- The literal arguments, which configure the function. -/
def literals (c : Call) : List Value := c.arguments.filterMap Operand.literal?

/-- The text of a call. -/
def display (c : Call) : String :=
  let arguments :=
    if c.arguments.isEmpty && c.name == "COUNT" then "*"
    else ", ".intercalate (c.arguments.map Operand.display)
  s!"{c.name}({arguments})"

end Call

end SqlWindow
