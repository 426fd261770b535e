import SqlWindow.DataType.Basic
import SqlWindow.Double.Arithmetic
import SqlWindow.Text.Utf8
import SqlWindow.Timestamp.Basic

set_option autoImplicit false

/-! # Values

The values that fields hold. NULL carries the type of the field it stands in, where that is
known. Lean's `=` on values is identity: same variant, same hint, same bits. Equality in the
sense of SQL is `Value.same`.
-/

namespace SqlWindow

/-- A value. -/
inductive Value where
  /-- NULL, with the type it stands in for. -/
  | null (type : DataType)
  | integer (i : Int64)
  | float (x : Double)
  | text (s : String)
  | boolean (b : Bool)
  | timestamp (t : Timestamp)
  /-- A JSON document, kept as its text. -/
  | json (s : String)
deriving DecidableEq, Repr

namespace Value

/-- NULL of unknown type. -/
def unknown : Value := null .null

instance : Inhabited Value := ⟨unknown⟩

/-! ## Observers -/

/-- The type of a value; the hint of a NULL. -/
def type : Value → DataType
  | null type => type
  | integer _ => .integer
  | float _ => .float
  | text _ => .text
  | boolean _ => .boolean
  | timestamp _ => .timestamp
  | json _ => .json

/-- The value is NULL. -/
def isNull : Value → Bool
  | null _ => true
  | _ => false

/-- The bytes a value is charged with against a memory budget: 24 for the value, and the UTF-8
length of its text. -/
def size : Value → Nat
  | text s | json s => 24 + s.utf8ByteSize
  | _ => 24

/-! ## Readings -/

/-- The reading as an integer: floats are cut toward zero, booleans are 0 and 1. -/
def toInteger? : Value → Option Int64
  | integer i => some i
  | float x => some x.toInt64
  | boolean b => some (if b then 1 else 0)
  | _ => none

/-- The reading as a double. -/
def toDouble? : Value → Option Double
  | integer i => some (Double.ofInt64 i)
  | float x => some x
  | boolean b => some (Double.ofInt (if b then 1 else 0))
  | _ => none

/-- The characters of a text or document. -/
def toText? : Value → Option String
  | text s | json s => some s
  | _ => none

/-- The moment of a timestamp. -/
def toTimestamp? : Value → Option Timestamp
  | timestamp t => some t
  | _ => none

/-! ## Literals -/

instance : Coe Int64 Value := ⟨integer⟩
instance : Coe Double Value := ⟨float⟩
instance : Coe String Value := ⟨text⟩
instance : Coe Bool Value := ⟨boolean⟩
instance : Coe Timestamp Value := ⟨timestamp⟩

/-- The value of a 32-bit integer. -/
def ofInt32 (i : Int32) : Value := integer i.toInt64

/-- An absent value is NULL of unknown type. -/
def ofOption {α : Type} (f : α → Value) : Option α → Value
  | some a => f a
  | none => unknown

end Value

end SqlWindow
