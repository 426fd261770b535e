import SqlWindow.Error
import SqlWindow.Value.Text

set_option autoImplicit false

/-! # NTILE

The state of NTILE: how many buckets there are, how many rows the window has, and how many rows
up to the current one have been seen. Buckets differ in size by one row at most, and the larger
ones come first. All numbers are 64-bit integers.
-/

namespace SqlWindow

/-- The state of NTILE. -/
structure Ntile where
  buckets : Int64 := 1
  window : Int64 := 0
  seen : Int64 := 0
deriving DecidableEq, Inhabited, Repr

namespace Ntile

/-- The bucket of row number `row` when `total` rows are dealt out to `buckets` buckets. The
first `total % buckets` buckets have one row more than the others; with more buckets than rows
those are the only ones that have a row. -/
def bucketOf (buckets total row : Int64) : Int64 :=
  let size := total / buckets
  let larger := total % buckets
  let rowsInLarger := larger * (size + 1)
  let bucket :=
    if row ≤ rowsInLarger then (row - 1) / (size + 1) + 1
    else if 0 < size then larger + (row - rowsInLarger - 1) / size + 1
    else buckets
  min bucket buckets

/-- The bucket of the row seen last. -/
def bucket (s : Ntile) : Int64 :=
  bucketOf s.buckets (max (max s.window s.seen) 1) (max s.seen 1)

/-- The state with the number of buckets taken from the literal arguments of a call. -/
def configure (s : Ntile) (arguments : List Value) : Except Error Ntile :=
  match arguments.head? with
  | none => .error (.invalidArgument "NTILE requires a bucket count")
  | some (.integer n) =>
    if 0 < n then .ok { s with buckets := n }
    else .error (notPositive (.integer n))
  | some v => .error (notPositive v)
where
  notPositive (v : Value) : Error :=
    .invalidArgument s!"NTILE bucket count must be a positive integer, got {v.display}"

end Ntile

end SqlWindow
