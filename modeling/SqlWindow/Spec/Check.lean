import SqlWindow.Spec.Mode

set_option autoImplicit false

/-! # Checking specifications

A specification is checked against the types of the input fields before any row is seen. What
is accepted can be evaluated; what is not is refused with the first fault, going through the
groups in order.
-/

namespace SqlWindow

variable {σ : Type}

/-! ## Calls -/

/-- The type of a field. -/
def fieldType (types : List DataType) (index : Nat) : Except Error DataType :=
  (Operand.field index).type types

namespace Call

/-- Accepts a call: its function exists and takes as many arguments, the arguments have types,
and the literal ones configure the function. The answer is the configured function. -/
def check (c : Call) (types : List DataType) (registry : Registry σ) :
    Except Error (Accumulator σ) := do
  let a ← registry.create c.name
  match a.info.signature.checkCount c.arguments.length with
  | .ok () => pure ()
  | .error e => throw (.invalidArgument s!"{c.name}: {e.message}")
  c.arguments.forM fun argument => discard (argument.type types)
  let (outcome, a) := (Accumulator.configure c.literals).outcome a
  outcome
  return a

/-- Accepts the row that a call looks up: an integer distance, and a default of a common type
with the value. -/
def checkLookup (c : Call) (types : List DataType) : Except Error Unit :=
  match c.lookup with
  | none => return
  | some lookup => do
    match lookup.offset with
    | .literal (.integer _) => pure ()
    | .literal v => throw (.invalidFrameOffset v.display s!"{c.name} offset must be an integer")
    | .field index =>
      let type ← fieldType types index
      if !type.isIntegral then throw (.offsetNotIntegral index type)
    let valueType ← match c.value? with
      | some value => value.type types
      | none => throw (.invalidArgument s!"{c.name} needs a value")
    let defaultType ← lookup.default.type types
    if !valueType.hasCommonType defaultType then
      throw (.defaultTypeMismatch valueType defaultType)

end Call

/-! ## Groups -/

namespace WindowGroup

/-- The literal distances of the frame. -/
def literalDistances (g : WindowGroup) : List Value :=
  [g.lower, g.upper].filterMap FrameBound.literal?

/-- Accepts the fields of the partitioning and of the ordering. -/
def checkFields (g : WindowGroup) (types : List DataType) : Except Error Unit := do
  g.partition.forM fun index => discard (fieldType types index)
  g.sort.forM fun key => do
    let type ← fieldType types key.index
    if !type.isOrderable then
      throw (.invalidSpec s!"cannot order by field {key.index} of type {type.name}")

/-- Accepts a bound: no distance is taken from a field. -/
def checkBound : FrameBound → Except Error Unit
  | .distance (.field index) =>
    throw (.invalidFrameOffset s!"${index}" "field offsets are only allowed for LEAD/LAG")
  | _ => return

/-- Accepts the distances of a ROWS frame: integers. -/
def checkRowDistances (g : WindowGroup) : Except Error Unit :=
  g.literalDistances.forM fun v =>
    match v with
    | .integer _ => return
    | v => throw (.invalidFrameOffset v.display "ROWS offset must be an integer")

/-- A distance fits an ordering field of some type: whole milliseconds for timestamps, numbers
for numbers. -/
def distanceFits (keyType : DataType) : Value → Bool
  | .integer _ => true
  | .float _ => keyType != .timestamp
  | _ => false

/-- Accepts the distances of a RANGE frame: the first ordering field has distances, and these
are of its kind. -/
def checkRangeDistances (g : WindowGroup) (types : List DataType) : Except Error Unit :=
  if g.literalDistances.isEmpty then return
  else match g.sort with
    | [] => throw (.invalidFrame "RANGE offset without ORDER BY")
    | key :: _ => do
      let keyType ← fieldType types key.index
      if !keyType.isAdditive then throw (.rangeKeyNotAdditive key.index keyType)
      g.literalDistances.forM fun v =>
        if distanceFits keyType v then return
        else
          throw (.invalidFrameOffset v.display
            (if keyType = .timestamp then
              "RANGE offset over a TIMESTAMP key must be integer milliseconds"
            else s!"RANGE offset must be numeric for a {keyType.name} key"))

/-- Accepts a group of lookups. -/
def checkLookups (g : WindowGroup) (types : List DataType) (registry : Registry σ) :
    Except Error Unit :=
  g.calls.forM fun c => do
    discard (c.check types registry)
    c.checkLookup types

/-- Accepts a group of calls over a frame. Functions that cannot take rows back are refused
where rows leave the frame. -/
def checkFramed (g : WindowGroup) (types : List DataType) (registry : Registry σ) :
    Except Error Unit := do
  checkBound g.lower
  checkBound g.upper
  let shape ← FrameShape.ofBounds g.unit g.lower g.upper
  match g.mode with
  | .row => g.checkRowDistances
  | .range => g.checkRangeDistances types
  | _ => pure ()
  g.calls.forM fun c => do
    let a ← c.check types registry
    if (g.mode == .row || g.mode == .range) && shape.retracts && !a.supportsRetract then
      throw (.retractionNotSupported c.name s!"{g.unit.display} {shape.display}")

/-- Accepts a group; `position` is its place in the specification. -/
def check (g : WindowGroup) (position : Nat) (types : List DataType) (registry : Registry σ) :
    Except Error Unit := do
  g.checkFields types
  if g.calls.isEmpty then
    throw (.invalidSpec s!"window group {position} has no aggregate calls")
  if g.calls.any Call.isLookup && !g.calls.all Call.isLookup then
    throw (.invalidSpec s!"window group {position} mixes LEAD/LAG with framed aggregates")
  if g.mode = .offset then g.checkLookups types registry else g.checkFramed types registry

end WindowGroup

/-! ## Specifications -/

namespace WindowSpec

/-- Two lists have the same fields, whatever their order and however often. -/
def sameFields (a b : List Nat) : Bool := a.all b.contains && b.all a.contains

/-- Fields as a list in brackets. -/
def fieldsText (fields : List Nat) : String :=
  "[" ++ ", ".intercalate (fields.map fun i => toString i) ++ "]"

/-- Accepts a specification: it has groups, all groups partition by the same fields, and every
group is accepted. -/
def check (s : WindowSpec) (types : List DataType) (registry : Registry σ) : Except Error Unit :=
  match s.groups with
  | [] => throw (.invalidSpec "no window groups")
  | first :: _ =>
    s.groups.zipIdx.forM fun (g, position) => do
      if !sameFields g.partition first.partition then
        throw (.invalidSpec
          (s!"group {position} partitions by {fieldsText g.partition}, " ++
            s!"group 0 by {fieldsText first.partition}"))
      g.check position types registry

end WindowSpec

end SqlWindow
