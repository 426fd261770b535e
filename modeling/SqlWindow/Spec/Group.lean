import SqlWindow.Spec.Bound
import SqlWindow.Spec.Call

set_option autoImplicit false

/-! # Window groups

A window group is what one `OVER` clause describes: a partitioning, an ordering, a frame, and
the calls evaluated over it. The groups of a specification are evaluated together over the same
input.
-/

namespace SqlWindow

/-- One field of an ordering. -/
structure SortKey where
  index : Nat
  ascending : Bool
deriving DecidableEq, Repr

/-- One `OVER` clause with its calls. Without an explicit frame it has the one of SQL: RANGE
from the start of the partition to the current row. -/
structure WindowGroup where
  /-- The fields that make a partition. -/
  partition : List Nat
  /-- The ordering inside a partition. -/
  sort : List SortKey := []
  unit : FrameUnit := .range
  lower : FrameBound := .unboundedPreceding
  upper : FrameBound := .currentRow
  calls : List Call := []
deriving DecidableEq, Repr

/-- The text of an ordering field. -/
def SortKey.display (k : SortKey) : String :=
  s!"${k.index} " ++ if k.ascending then "ASC" else "DESC"

/-- The text of a group. -/
def WindowGroup.display (g : WindowGroup) : String :=
  let calls := ", ".intercalate (g.calls.map Call.display)
  let fields := ", ".intercalate (g.partition.map fun i => s!"${i}")
  let keys := ", ".intercalate (g.sort.map SortKey.display)
  s!"{calls} OVER (" ++
    (if g.partition.isEmpty then "" else s!"PARTITION BY {fields} ") ++
    (if g.sort.isEmpty then "" else s!"ORDER BY {keys} ") ++
    s!"{g.unit.display} BETWEEN {g.lower.display} AND {g.upper.display})"

/-- The groups that one operator evaluates. -/
structure WindowSpec where
  groups : List WindowGroup
deriving DecidableEq, Repr

namespace WindowSpec

/-- The partition fields that all groups share. -/
def partition (s : WindowSpec) : List Nat :=
  match s.groups with
  | g :: _ => g.partition
  | [] => []

/-- The ordering of the input inside a partition: the one of the last group stands for all. -/
def sort? (s : WindowSpec) : Option (List SortKey) := s.groups.getLast?.map WindowGroup.sort

/-- How many values are appended to every input row. -/
def arity (s : WindowSpec) : Nat := (s.groups.flatMap WindowGroup.calls).length

end WindowSpec

end SqlWindow
