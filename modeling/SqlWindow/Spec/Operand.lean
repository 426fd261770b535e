import SqlWindow.Row

set_option autoImplicit false

/-! # Operands

An argument of a call is a field of the input row or a literal.
-/

namespace SqlWindow

/-- An argument of a call. -/
inductive Operand where
  /-- The field at a position. -/
  | field (index : Nat)
  | literal (value : Value)
deriving DecidableEq, Repr

namespace Operand

instance : Inhabited Operand := ⟨literal .unknown⟩

/-- The value of an operand on a row. -/
def eval (row : Row) : Operand → Except Error Value
  | field index => row.field index
  | literal value => .ok value

/-- The type of an operand over rows of the given types. -/
def type (types : List DataType) : Operand → Except Error DataType
  | field index =>
    match types[index]? with
    | some t => .ok t
    | none => .error (.fieldIndexOutOfBounds index types.length)
  | literal value => .ok value.type

/-- The literal value of an operand. -/
def literal? : Operand → Option Value
  | field _ => none
  | literal value => some value

/-- Equality of operands, with literals compared as keys. -/
def same : Operand → Operand → Bool
  | field i, field j => i == j
  | literal a, literal b => a.same b
  | _, _ => false

/-- The text of an operand. -/
def display : Operand → String
  | field index => s!"${index}"
  | literal value => value.display

end Operand

end SqlWindow
