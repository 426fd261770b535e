import SqlWindow.Error

set_option autoImplicit false

/-! # Function signatures

What is known of a function before it is called: its name, its category, and the number and
types of its arguments.
-/

namespace SqlWindow

/-- The category of a function. -/
inductive FunctionCategory where
  /-- Aggregates the rows of a frame. -/
  | aggregate
  /-- Ranks, distributes or looks up rows. -/
  | window
deriving DecidableEq, Repr

/-- The type of an argument or result. -/
inductive ArgumentType where
  | any
  | integer
  | float
  | string
  | boolean
  | timestamp
deriving DecidableEq, Repr

/-- The result type, the argument types, and how many arguments a call may have. -/
structure Signature where
  result : ArgumentType
  arguments : List ArgumentType
  minArguments : Nat
  maxArguments : Nat
deriving DecidableEq, Repr

/-- Accepts a number of arguments. -/
def Signature.checkCount (s : Signature) (count : Nat) : Except Error Unit :=
  if count < s.minArguments then
    .error (.invalidArgument s!"expected at least {s.minArguments} arguments, got {count}")
  else if s.maxArguments < count then
    .error (.invalidArgument s!"expected at most {s.maxArguments} arguments, got {count}")
  else .ok ()

/-- A function as it is listed. -/
structure FunctionInfo where
  name : String
  category : FunctionCategory
  description : String
  signature : Signature
deriving DecidableEq, Repr

end SqlWindow
