import SqlWindow.Function.Registry

set_option autoImplicit false

/-! # What a reset forgets

Behind a reset a function is what it was configured to be: nothing is left of the values that came
in and went out. Of the built-in functions this is proved here. Of a user-defined function it is
what its author promises, and what `UserFunction.Forgets` spells out.
-/

namespace SqlWindow

variable {σ : Type}

/-- The promise of a reset: it leaves the configuration and nothing else. Values that came in or
went out, also where taking one back failed, make no difference behind it, and a window size that
was set before makes none behind the next one. -/
structure UserFunction.Forgets (f : UserFunction σ) : Prop where
  accumulate : ∀ v s, f.reset (f.accumulate v s) = f.reset s
  retract : ∀ v s, f.reset ((f.retract v).outcome s).2 = f.reset s
  reset : ∀ s, f.reset (f.reset s) = f.reset s
  setWindowSize : ∀ size size' s,
    f.setWindowSize size (f.reset (f.setWindowSize size' s)) = f.setWindowSize size (f.reset s)

namespace Accumulator

/-- The function forgets all values in a reset. -/
def Forgets : Accumulator σ → Prop
  | user f _ => f.Forgets
  | _ => True

/-- The function at the start of a partition of some length. -/
def prepared (size : Nat) (a : Accumulator σ) : Accumulator σ := a.reset.setWindowSize size

variable {a : Accumulator σ}

@[simp] theorem forgets_reset : a.reset.Forgets ↔ a.Forgets := by
  cases a <;> exact Iff.rfl

@[simp] theorem forgets_prepared (size : Nat) : (a.prepared size).Forgets ↔ a.Forgets := by
  cases a <;> exact Iff.rfl

theorem reset_accumulate (h : a.Forgets) (v : Value) : (a.accumulate v).reset = a.reset := by
  cases a with
  | user f s => exact congrArg (user f) (h.accumulate v s)
  | _ => rfl

/-- Whether taking the value back succeeds or not. -/
theorem reset_retract (h : a.Forgets) (v : Value) :
    ((retract v).outcome a).2.reset = a.reset := by
  cases a with
  | user f s =>
    have hreset := congrArg (user f) (h.retract v s)
    simp only [Action.outcome, Accumulator.retract] at hreset ⊢
    cases hs : f.retract v s <;> rw [hs] at hreset <;> exact hreset
  | count n =>
    simp only [Action.outcome, Accumulator.retract]
    cases v.isNull <;> cases n <;> rfl
  | sum s =>
    simp only [Action.outcome, Accumulator.retract]
    cases s.remove v <;> rfl
  | avg s =>
    simp only [Action.outcome, Accumulator.retract]
    cases s.remove v <;> rfl
  | min bag =>
    simp only [Action.outcome, Accumulator.retract]
    cases v.isNull <;> cases bag.remove v <;> rfl
  | max bag =>
    simp only [Action.outcome, Accumulator.retract]
    cases v.isNull <;> cases bag.remove v <;> rfl
  | _ => rfl

theorem reset_reset (h : a.Forgets) : a.reset.reset = a.reset := by
  cases a with
  | user f s => exact congrArg (user f) (h.reset s)
  | _ => rfl

theorem prepared_setWindowSize (h : a.Forgets) (size size' : Nat) :
    (a.setWindowSize size').prepared size = a.prepared size := by
  cases a with
  | user f s => exact congrArg (user f) (h.setWindowSize size size' s)
  | _ => rfl

/-- Taking in the arguments of a call does not make another function of it. -/
theorem Forgets.configure (h : a.Forgets) (arguments : List Value) :
    ((Accumulator.configure arguments).outcome a).2.Forgets := by
  cases a with
  | user f s =>
    simp only [Action.outcome, Accumulator.configure]
    cases f.configure arguments s <;> exact h
  | ntile s =>
    simp only [Action.outcome, Accumulator.configure]
    cases s.configure arguments <;> trivial
  | _ => trivial

end Accumulator

/-! ## Registries -/

namespace Registry

/-- All functions forget all values in a reset. -/
def Forgets (r : Registry σ) : Prop := ∀ p ∈ r.entries, p.2.Forgets

end Registry

end SqlWindow
