import SqlWindow.Error
import SqlWindow.Value.Basic

set_option autoImplicit false

/-! # Comparing values

Three relations on values. `Value.same` is the equality of partition keys and peers: NULL is
the same as NULL, and a number is the same as every number of its value. `Value.order` is the
total order of sorted input: NULL first, then booleans, numbers, texts, timestamps and
documents, each in their natural order. `Value.compare?` is comparison in the sense of SQL,
which refuses NULL beside a value and values of types without a common order.
-/

namespace SqlWindow

namespace Value

/-! ## Equality -/

/-- Equality of keys. -/
def same : Value → Value → Bool
  | null _, null _ => true
  | integer a, integer b => a == b
  | float a, float b => a.same b
  | integer i, float x => x.same (Double.ofInt64 i)
  | float x, integer i => x.same (Double.ofInt64 i)
  | text a, text b => a == b
  | boolean a, boolean b => a == b
  | timestamp a, timestamp b => a == b
  | json a, json b => a == b
  | _, _ => false

/-! ## Total order -/

/-- The place of a variant in the total order. Both kinds of number share one. -/
def rank : Value → Nat
  | null _ => 0
  | boolean _ => 1
  | integer _ | float _ => 2
  | text _ => 3
  | timestamp _ => 4
  | json _ => 5

/-- The total order of sorted input. An integer meets a float as the double nearest to it. -/
def order : Value → Value → Ordering
  | null _, null _ => .eq
  | integer a, integer b => compare a.toInt b.toInt
  | float a, float b => a.order b
  | integer i, float x => (Double.ofInt64 i).order x
  | float x, integer i => x.order (Double.ofInt64 i)
  | text a, text b => compare a b
  | boolean a, boolean b => compare a b
  | timestamp a, timestamp b => a.order b
  | json a, json b => compare a b
  | a, b => compare a.rank b.rank

/-! ## Comparison in SQL -/

/-- Comparison of two values that are not NULL and have one type. Documents can only be told
equal. -/
def compareSameType? : Value → Value → Except Error Ordering
  | integer a, integer b => .ok (compare a.toInt b.toInt)
  | float a, float b => .ok (a.order b)
  | text a, text b => .ok (compare a b)
  | boolean a, boolean b => .ok (compare a b)
  | timestamp a, timestamp b => .ok (a.order b)
  | json a, json b => if a = b then .ok .eq else .error .incomparableTypes
  | _, _ => .error .incomparableTypes

/-- Comparison in the sense of SQL. -/
def compare? (a b : Value) : Except Error Ordering :=
  if a.isNull || b.isNull then
    if a.isNull && b.isNull then .ok .eq else .error .nullComparison
  else if a.type = b.type then compareSameType? a b
  else match a.toDouble?, b.toDouble? with
    | some x, some y =>
      if a.type.isNumeric && b.type.isNumeric then .ok (x.order y) else .error .incomparableTypes
    | _, _ => .error .incomparableTypes

/-! ## Hash keys -/

/-- What a hash of a value depends on. -/
inductive HashKey where
  | null
  /-- The bits of a number as a double. -/
  | number (bits : UInt64)
  | text (s : String)
  | boolean (b : Bool)
  /-- Nanoseconds since the start of 1970, where they fit in 64 bits. -/
  | timestamp (nanos : Option Int)
  | json (s : String)
deriving DecidableEq, Repr

/-- What the hash of a value depends on. Integers hash like the doubles nearest to them; the
two zeros hash apart although they are the same number. -/
def hashKey : Value → HashKey
  | null _ => .null
  | integer i => .number (Double.ofInt64 i).bits
  | float x => .number x.bits
  | text s => .text s
  | boolean b => .boolean b
  | timestamp t => .timestamp t.nanosSinceEpoch?
  | json s => .json s

/-! ## Sorting -/

/-- The values in ascending order; those that are equal keep their places relative to each
other. -/
def sort (vs : List Value) : List Value := vs.mergeSort fun a b => order a b != .gt

end Value

end SqlWindow
