set_option autoImplicit false

/-! # Data types

The types of input fields and of values, with the properties the planner asks about and the
code each type has in a spilled row.
-/

namespace SqlWindow

/-- The type of a field. `null` stands for an unknown type. -/
inductive DataType where
  | null
  | integer
  | float
  | text
  | boolean
  | timestamp
  | json
deriving DecidableEq, Repr

instance : Inhabited DataType := ⟨.null⟩

namespace DataType

/-! ## Names and codes -/

/-- The SQL name of a type. -/
def name : DataType → String
  | null => "NULL"
  | integer => "INTEGER"
  | float => "FLOAT"
  | text => "TEXT"
  | boolean => "BOOLEAN"
  | timestamp => "TIMESTAMP"
  | json => "JSON"

/-- The code of a type in a spilled row. -/
def code : DataType → UInt8
  | null => 0
  | integer => 1
  | float => 2
  | text => 3
  | boolean => 4
  | timestamp => 5
  | json => 6

/-- The type with a code. -/
def ofCode? (code : UInt8) : Option DataType :=
  [null, integer, float, text, boolean, timestamp, json].find? (·.code == code)

/-- Every type is found again under its code. -/
theorem ofCode?_code (t : DataType) : ofCode? t.code = some t := by
  cases t <;> rfl

/-! ## Properties -/

/-- Numbers. -/
def isNumeric : DataType → Bool
  | integer | float => true
  | _ => false

/-- Whole numbers. -/
def isIntegral : DataType → Bool
  | integer => true
  | _ => false

/-- A distance can be added to values of the type. -/
def isAdditive : DataType → Bool
  | integer | float | timestamp => true
  | _ => false

/-- Values of the type have an order. -/
def isOrderable : DataType → Bool
  | json => false
  | _ => true

/-- Values of both types can share a column: an unknown type goes with every type, numbers go
with numbers, any other type only with itself. -/
def hasCommonType (a b : DataType) : Bool :=
  a == null || b == null || a == b || (a.isNumeric && b.isNumeric)

end DataType

end SqlWindow
