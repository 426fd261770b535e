import SqlWindow.Value.Order
import SqlWindow.Value.Text

set_option autoImplicit false

/-! # Rows

A row is the list of its field values.
-/

namespace SqlWindow

/-- A row of field values. -/
abbrev Row := List Value

namespace Row

/-- The value of a field. -/
def field (row : Row) (index : Nat) : Except Error Value :=
  match row[index]? with
  | some v => .ok v
  | none => .error (.fieldIndexOutOfBounds index row.length)

/-- Rows of one length whose values are pairwise the same. -/
def same : Row → Row → Bool
  | [], [] => true
  | a :: as, b :: bs => a.same b && same as bs
  | _, _ => false

/-- The bytes a row is charged with against a memory budget: 24 for the row, and its values. -/
def size (row : Row) : Nat := row.foldr (fun v n => v.size + n) 24

/-- The text of a row: its values between parentheses. -/
def display (row : Row) : String := "(" ++ ", ".intercalate (row.map Value.display) ++ ")"

end Row

end SqlWindow
