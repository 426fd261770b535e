import SqlWindow.Error
import SqlWindow.Value.Order
import SqlWindow.Value.Text

set_option autoImplicit false

/-! # Bags of values

The state of MIN and MAX: how often each value is in the frame, in ascending order. Values of
one number, such as 1 and 1.0, share an entry, which keeps the value that opened it.
-/

namespace SqlWindow

/-- Values in ascending order, each with how often it is held. -/
abbrev ValueBag := List (Value × Nat)

namespace ValueBag

/-- The bag with one more value. -/
def insert (v : Value) : ValueBag → ValueBag
  | [] => [(v, 1)]
  | (w, n) :: rest =>
    match v.order w with
    | .lt => (v, 1) :: (w, n) :: rest
    | .eq => (w, n + 1) :: rest
    | .gt => (w, n) :: insert v rest

/-- The bag with one value less, if it holds the value. -/
def erase? (v : Value) : ValueBag → Option ValueBag
  | [] => none
  | (w, n) :: rest =>
    match v.order w with
    | .lt => none
    | .eq => if 1 < n then some ((w, n - 1) :: rest) else some rest
    | .gt => (erase? v rest).map ((w, n) :: ·)

/-- The bag with one value less. -/
def remove (bag : ValueBag) (v : Value) : Except Error ValueBag :=
  match erase? v bag with
  | some rest => .ok rest
  | none => .error (.internal s!"retracted value {v.display} was never accumulated")

/-- The least value; NULL in an empty bag. -/
def least (bag : ValueBag) : Value :=
  match bag.head? with
  | some (v, _) => v
  | none => .unknown

/-- The greatest value; NULL in an empty bag. -/
def greatest (bag : ValueBag) : Value :=
  match bag.getLast? with
  | some (v, _) => v
  | none => .unknown

end ValueBag

end SqlWindow
