import SqlWindow.Spec.Group

set_option autoImplicit false

/-! # Modes and shapes

How a group is evaluated follows from its calls, ordering and frame. The mode says what its
frames look at; the shape says which rows enter and leave a ROWS or RANGE frame as the current
row moves on.
-/

namespace SqlWindow

/-! ## Modes -/

/-- What the frames of a group look at. -/
inductive Mode where
  /-- Rows by position. -/
  | row
  /-- Rows by ordering value. -/
  | range
  /-- The whole partition, as nothing orders it. -/
  | insensitive
  /-- One other row for each call. -/
  | offset
deriving DecidableEq, Repr

/-- The name of a mode. -/
def Mode.display : Mode → String
  | .row => "ROW"
  | .range => "RANGE"
  | .insensitive => "INSENSITIVE"
  | .offset => "OFFSET"

/-- The mode of a group. That all calls are lookups comes first, a missing ordering second. -/
def WindowGroup.mode (g : WindowGroup) : Mode :=
  if !g.calls.isEmpty && g.calls.all Call.isLookup then .offset
  else if g.sort.isEmpty then .insensitive
  else match g.unit with
    | .rows => .row
    | .range => .range

/-! ## Shapes -/

/-- How a ROWS or RANGE frame moves. -/
inductive FrameShape where
  /-- Without bounds. -/
  | unbounded
  /-- From the start of the partition; rows only enter. -/
  | growing
  /-- To the end of the partition; rows only leave. -/
  | shrinking
  /-- Rows enter and leave. -/
  | sliding
  /-- The current row alone. -/
  | currentRow
deriving DecidableEq, Repr

namespace FrameShape

/-- The name of a shape. -/
def display : FrameShape → String
  | unbounded => "unbounded"
  | growing => "growing"
  | shrinking => "shrinking"
  | sliding => "sliding"
  | currentRow => "current-row"

/-- Rows leave the frame. -/
def retracts : FrameShape → Bool
  | shrinking | sliding => true
  | _ => false

/-- The shape of the frame between two bounds. No frame starts at the end of the partition or
ends at its start. -/
def ofBounds (unit : FrameUnit) (lower upper : FrameBound) : Except Error FrameShape :=
  match lower, upper with
  | .unboundedFollowing, _ =>
    .error (.invalidFrame s!"lower bound cannot be {lower.display}")
  | _, .unboundedPreceding =>
    .error (.invalidFrame s!"upper bound cannot be {upper.display}")
  | .unboundedPreceding, .unboundedFollowing => .ok unbounded
  | .unboundedPreceding, _ => .ok growing
  | _, .unboundedFollowing => .ok shrinking
  | .currentRow, .currentRow =>
    match unit with
    | .rows => .ok currentRow
    | .range => .ok sliding
  | _, _ => .ok sliding

end FrameShape

/-! ## Buffering -/

variable {σ : Type}

/-- The call depends on the number of rows in the window, as it says itself or as the registry
knows its function. -/
def Call.needsWindowSize (c : Call) (registry : Registry σ) : Bool :=
  c.sizeSensitive || match registry.find? c.name with
    | some a => a.isSizeSensitive
    | none => false

/-- The partition has to be complete before the group can be evaluated. Only ROWS frames of the
current row alone, with no call that needs the number of rows, can do without. -/
def WindowGroup.needsBuffering (g : WindowGroup) (registry : Registry σ) : Bool :=
  g.calls.any (·.needsWindowSize registry) ||
    !(g.mode == .row && g.lower == .currentRow && g.upper == .currentRow)

/-- Some group needs complete partitions. -/
def WindowSpec.needsBuffering (s : WindowSpec) (registry : Registry σ) : Bool :=
  s.groups.any (·.needsBuffering registry)

end SqlWindow
