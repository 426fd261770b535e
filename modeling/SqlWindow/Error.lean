import SqlWindow.DataType.Basic

set_option autoImplicit false

/-! # Errors

What can go wrong, one constructor per cause, with the wording of each in `Error.message`.
Every error is of one of three kinds: the window specification is at fault, the engine is,
or the environment is.
-/

namespace SqlWindow

/-- Who is at fault. -/
inductive ErrorKind where
  /-- A malformed specification or value, mended by changing the query. -/
  | validation
  /-- A defect of the engine. -/
  | internal
  /-- Trouble with spilled rows. -/
  | resource
deriving DecidableEq, Repr

/-- The cause of a failure. -/
inductive Error where
  /-- No function of this name is registered. -/
  | functionNotFound (function : String)
  /-- An argument or option has no acceptable value. -/
  | invalidArgument (reason : String)
  /-- A function that cannot take rows back is used where rows leave the frame. -/
  | retractionNotSupported (function frame : String)
  /-- A field position past the end of a row or row type. -/
  | fieldIndexOutOfBounds (index arity : Nat)
  /-- The field that holds a row offset is not of an integral type. -/
  | offsetNotIntegral (index : Nat) (type : DataType)
  /-- A default has no common type with the value it stands in for. -/
  | defaultTypeMismatch (expected actual : DataType)
  /-- A RANGE distance over an ordering field that has none. -/
  | rangeKeyNotAdditive (index : Nat) (type : DataType)
  /-- A frame distance that does not fit its unit or ordering field. -/
  | invalidFrameOffset (value reason : String)
  /-- A pair of bounds that describes no frame. -/
  | invalidFrame (reason : String)
  /-- Window groups that cannot be evaluated together. -/
  | invalidSpec (reason : String)
  /-- NULL was compared with a value. -/
  | nullComparison
  /-- Two values of types without a common order were compared. -/
  | incomparableTypes
  /-- A conversion between two types that have none. -/
  | typeConversion (source target : String)
  /-- A frame that mode and bounds rule out. -/
  | unexpectedFrameShape (shape : String)
  /-- Any other broken invariant. -/
  | internal (reason : String)
  /-- Spilled rows could not be written or read back. -/
  | io (reason : String)
  /-- A spilled row does not have the checksum stored with it. -/
  | spillCorrupted (row : Nat) (stored computed : UInt32)
deriving DecidableEq, Repr

namespace Error

/-- The kind of an error. -/
def kind : Error → ErrorKind
  | unexpectedFrameShape _ | internal _ => .internal
  | io _ | spillCorrupted _ _ _ => .resource
  | _ => .validation

/-- A word in lower-case hexadecimal, without leading zeros. -/
def hexText (w : UInt32) : String := "0x" ++ String.ofList (Nat.toDigits 16 w.toNat)

/-- The wording of an error. -/
def message : Error → String
  | functionNotFound function => s!"aggregate function '{function}' not found"
  | invalidArgument reason => s!"invalid argument: {reason}"
  | retractionNotSupported function frame =>
    s!"aggregate function '{function}' does not support retraction, required by {frame} frame"
  | fieldIndexOutOfBounds index arity =>
    s!"field index {index} out of bounds for input of {arity} fields"
  | offsetNotIntegral index type =>
    s!"offset field {index} must be an integral type, got {type.name}"
  | defaultTypeMismatch expected actual =>
    "the default value must have a common type with the given expression. " ++
      s!"ARG0: {expected.name}, default: {actual.name}"
  | rangeKeyNotAdditive index type =>
    "RANGE frame offset needs a numeric or temporal ordering field, " ++
      s!"field {index} is {type.name}"
  | invalidFrameOffset value reason => s!"invalid frame offset {value}: {reason}"
  | invalidFrame reason => s!"invalid window frame: {reason}"
  | invalidSpec reason => s!"invalid window specification: {reason}"
  | nullComparison => "cannot compare NULL with non-NULL value"
  | incomparableTypes => "incomparable types"
  | typeConversion source target => s!"cannot convert {source} to {target}"
  | unexpectedFrameShape shape => s!"unexpected frame shape: {shape}"
  | internal reason => s!"internal error: {reason}"
  | io reason => s!"I/O error: {reason}"
  | spillCorrupted row stored computed =>
    s!"spill page corrupted at row {row}: " ++
      s!"stored={hexText stored}, computed={hexText computed}"

end Error

end SqlWindow
