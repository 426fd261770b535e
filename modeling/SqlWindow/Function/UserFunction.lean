import SqlWindow.Action
import SqlWindow.Function.Signature
import SqlWindow.Value.Basic

set_option autoImplicit false

/-! # User-defined functions

A function that is added to a registry brings its own state and says how rows change it. What
it leaves out has a default: arguments are not looked at, rows cannot be taken back, and the
size of the window does not matter.
-/

namespace SqlWindow

/-- A function with states of type `σ`. -/
structure UserFunction (σ : Type) where
  /-- The name it is registered under, in any letter case. -/
  name : String
  /-- How it is listed. -/
  info : FunctionInfo
  /-- The state before any row. -/
  initial : σ
  /-- Takes in the literal arguments of a call, once, before any row. -/
  configure : List Value → Action σ Unit := fun _ => pure ()
  /-- Adds a value. -/
  accumulate : Value → σ → σ
  /-- Takes a value back. -/
  retract : Value → Action σ Unit := fun _ => throw (.retractionNotSupported name "retracting")
  /-- Values can be taken back. -/
  supportsRetract : σ → Bool := fun _ => false
  /-- The result depends on the number of rows in the window. -/
  isSizeSensitive : σ → Bool := fun _ => false
  /-- Takes in the number of rows in the window. -/
  setWindowSize : Nat → σ → σ := fun _ s => s
  /-- The result. -/
  result : σ → Value
  /-- Forgets all values. -/
  reset : σ → σ
  /-- The state of a new instance with the same configuration. -/
  renew : σ → σ

end SqlWindow
