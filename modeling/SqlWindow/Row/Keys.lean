import SqlWindow.Row
import SqlWindow.Spec.Group

set_option autoImplicit false

/-! # Keys of rows

Some fields of a row tell its partition, others its place inside the partition. Two rows belong
to one partition when their partition fields are pairwise the same, and they are peers when no
ordering field tells them apart.
-/

namespace SqlWindow

namespace Row

/-- Two rows have the same values in the partition fields. -/
def samePartition : (fields : List Nat) → Row → Row → Except Error Bool
  | [], _, _ => return true
  | index :: fields, a, b => do
    let x ← Row.field a index
    let y ← Row.field b index
    if x.same y then samePartition fields a b else return false

end Row

/-- The order of two values along an ordering field. In ascending order NULL comes first, in
descending order last. -/
def SortKey.order (key : SortKey) (a b : Value) : Ordering :=
  if key.ascending then a.order b else (a.order b).swap

namespace Row

/-- The order of two rows in sorted input: the first ordering field that tells them apart
decides. -/
def order : (sort : List SortKey) → Row → Row → Except Error Ordering
  | [], _, _ => return .eq
  | key :: sort, a, b => do
    let x ← Row.field a key.index
    let y ← Row.field b key.index
    match key.order x y with
    | .eq => order sort a b
    | o => return o

/-- No ordering field tells the rows apart. -/
def arePeers (sort : List SortKey) (a b : Row) : Except Error Bool :=
  return (← order sort a b) == .eq

end Row

end SqlWindow
