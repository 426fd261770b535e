import SqlWindow.Error

set_option autoImplicit false

/-! # Actions

An action changes a state and answers with a result or an error. The state it leaves behind
counts in both cases: whoever goes on after a failure goes on from there.
-/

namespace SqlWindow

/-- An action on a state of type `σ` with a result of type `α`. -/
abbrev Action (σ α : Type) := EStateM Error σ α

namespace Action

variable {σ τ α : Type}

/-- A result or error that leaves the state alone. -/
def ofExcept : Except Error α → Action σ α
  | .ok a => pure a
  | .error e => throw e

/-- What an action answers from a state, and the state it leaves behind. -/
def outcome (x : Action σ α) (s : σ) : Except Error α × σ :=
  match x s with
  | .ok a s => (.ok a, s)
  | .error e s => (.error e, s)

/-- An action on a part of the state. -/
def onPart (part : σ → τ) (withPart : σ → τ → σ) (x : Action τ α) : Action σ α := fun s =>
  match x (part s) with
  | .ok a t => .ok a (withPart s t)
  | .error e t => .error e (withPart s t)

/-- An action on the first of two states. -/
def onFirst (x : Action σ α) : Action (σ × τ) α := onPart Prod.fst (fun s a => (a, s.2)) x

/-- An action on the second of two states. -/
def onSecond (x : Action τ α) : Action (σ × τ) α := onPart Prod.snd (fun s b => (s.1, b)) x

/-- An action, and behind it a change of the state that also follows an error. -/
def andFinally (x : Action σ α) (change : σ → σ) : Action σ α := fun s =>
  match x s with
  | .ok a s => .ok a (change s)
  | .error e s => .error e (change s)

/-- Runs an action on each of some states in turn, all beside one shared state, up to the first
error. -/
def runEach (x : Action (σ × τ) α) :
    List σ → τ → EStateM.Result Error (List σ × τ) (List α)
  | [], shared => .ok [] ([], shared)
  | s :: rest, shared =>
    match x (s, shared) with
    | .error e (s, shared) => .error e (s :: rest, shared)
    | .ok a (s, shared) =>
      match runEach x rest shared with
      | .error e (rest, shared) => .error e (s :: rest, shared)
      | .ok as (rest, shared) => .ok (a :: as) (s :: rest, shared)

/-- An action on each of some states in turn, all beside one shared state. -/
def onEach (x : Action (σ × τ) α) : Action (List σ × τ) (List α) := fun (states, shared) =>
  runEach x states shared

end Action

end SqlWindow
