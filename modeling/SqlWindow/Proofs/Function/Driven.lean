import SqlWindow.Proofs.Answer
import SqlWindow.Proofs.Function.Builtin

set_option autoImplicit false

/-! # How functions are driven

Whoever works with a function adds values, takes values back, resets it and tells it the number of
rows, in some order. `Driven` is any such order, with the number it was told last. A step that fails
counts: the function is then as the step left it.

A function that says it supports taking values back can still answer that it does not, if its author
wrote it so. `HonorsSupport` excludes this; the built-in functions keep to what they say.
-/

namespace SqlWindow

open Answer (IsPlain)

variable {σ : Type}

namespace Accumulator

/-- The function `a₀` after some steps, of which the last one that told it the number of rows told
it this. Values were taken back only if that was allowed. -/
inductive Driven (mayRetract : Prop) (a₀ : Accumulator σ) : Option Nat → Accumulator σ → Prop where
  | start : Driven mayRetract a₀ none a₀
  | accumulate {told : Option Nat} {a : Accumulator σ} (v : Value)
      (h : Driven mayRetract a₀ told a) : Driven mayRetract a₀ told (a.accumulate v)
  | retract {told : Option Nat} {a : Accumulator σ} (v : Value) (hmay : mayRetract)
      (h : Driven mayRetract a₀ told a) :
      Driven mayRetract a₀ told ((Accumulator.retract v).outcome a).2
  | reset {told : Option Nat} {a : Accumulator σ} (h : Driven mayRetract a₀ told a) :
      Driven mayRetract a₀ told a.reset
  | setWindowSize {told : Option Nat} {a : Accumulator σ} (size : Nat)
      (h : Driven mayRetract a₀ told a) :
      Driven mayRetract a₀ (some size) (a.setWindowSize size)

end Accumulator

/-! ## Support for taking values back -/

theorem RunningSum.isPlain_remove (s : RunningSum) (v : Value) : IsPlain (s.remove v) := by
  unfold remove
  split
  case h_3 => exact .error rfl
  case h_4 => exact .error rfl
  all_goals exact .ok _

theorem ValueBag.isPlain_remove (bag : ValueBag) (v : Value) : IsPlain (bag.remove v) := by
  unfold remove
  split
  · exact .ok _
  · exact .error rfl

/-- The promise of a function that says it supports taking values back: it does not answer that it
does not, in whatever state it is. -/
def UserFunction.HonorsSupport (f : UserFunction σ) : Prop :=
  ∀ s, f.supportsRetract s = true → ∀ v t, IsPlain ((f.retract v).outcome t).1

namespace Accumulator

/-- The function does what it says of taking values back. -/
def HonorsSupport : Accumulator σ → Prop
  | user f _ => f.HonorsSupport
  | _ => True

/-- Taking a value back does not fail for want of support, whatever state the function is in. -/
def TakesBack : Accumulator σ → Prop
  | cumeDist _ | ntile _ => False
  | user f _ => ∀ v t, IsPlain ((f.retract v).outcome t).1
  | _ => True

variable {a a₀ : Accumulator σ}

theorem HonorsSupport.takesBack (h : a.HonorsSupport) (hsupports : a.supportsRetract = true) :
    a.TakesBack := by
  cases a with
  | cumeDist s => cases hsupports
  | ntile s => cases hsupports
  | user f s => exact h s hsupports
  | _ => trivial

/-- Taking in the arguments of a call does not make another function of it. -/
theorem HonorsSupport.configure (h : a.HonorsSupport) (arguments : List Value) :
    ((Accumulator.configure arguments).outcome a).2.HonorsSupport := by
  cases a with
  | user f s =>
    simp only [Action.outcome, Accumulator.configure]
    cases f.configure arguments s <;> exact h
  | ntile s =>
    simp only [Action.outcome, Accumulator.configure]
    cases s.configure arguments <;> trivial
  | _ => trivial

theorem TakesBack.accumulate (h : a.TakesBack) (v : Value) : (a.accumulate v).TakesBack := by
  cases a <;> exact h

theorem TakesBack.reset (h : a.TakesBack) : a.reset.TakesBack := by
  cases a <;> exact h

theorem TakesBack.setWindowSize (h : a.TakesBack) (size : Nat) :
    (a.setWindowSize size).TakesBack := by
  cases a <;> exact h

/-- **Taking a value back** may fail, but not for want of support, and what is left behind still
supports it. -/
theorem TakesBack.retract (h : a.TakesBack) (v : Value) :
    IsPlain ((Accumulator.retract v).outcome a).1 ∧
      ((Accumulator.retract v).outcome a).2.TakesBack := by
  simp only [Action.outcome, Accumulator.retract]
  cases a with
  | user f s =>
    have hplain := h v s
    simp only [Action.outcome] at hplain
    dsimp only
    cases hs : f.retract v s with
    | ok u t => exact ⟨.ok u, h⟩
    | error e t =>
      rw [hs] at hplain
      exact ⟨hplain, h⟩
  | cumeDist s => exact h.elim
  | ntile s => exact h.elim
  | count n =>
    dsimp only
    cases v.isNull <;> cases n <;> first | exact ⟨.ok _, trivial⟩ | exact ⟨.error rfl, trivial⟩
  | sum s =>
    dsimp only
    cases hs : s.remove v with
    | ok t => exact ⟨.ok _, trivial⟩
    | error e => exact ⟨.error (s.isPlain_remove v e hs), trivial⟩
  | avg s =>
    dsimp only
    cases hs : s.remove v with
    | ok t => exact ⟨.ok _, trivial⟩
    | error e => exact ⟨.error (s.isPlain_remove v e hs), trivial⟩
  | min bag =>
    dsimp only
    cases v.isNull <;> cases hs : bag.remove v <;>
      first | exact ⟨.ok _, trivial⟩ | exact ⟨.error (bag.isPlain_remove v _ hs), trivial⟩
  | max bag =>
    dsimp only
    cases v.isNull <;> cases hs : bag.remove v <;>
      first | exact ⟨.ok _, trivial⟩ | exact ⟨.error (bag.isPlain_remove v _ hs), trivial⟩
  | lead last => exact ⟨.ok _, trivial⟩
  | lag last => exact ⟨.ok _, trivial⟩

/-- **Any steps.** A function that takes values back does so wherever it is driven. -/
theorem Driven.takesBack {mayRetract : Prop} {told : Option Nat} (h : Driven mayRetract a₀ told a)
    (hstart : a₀.TakesBack) : a.TakesBack := by
  induction h with
  | start => exact hstart
  | accumulate v _ ih => exact ih.accumulate v
  | retract v _ _ ih => exact (ih.retract v).2
  | reset _ ih => exact ih.reset
  | setWindowSize size _ ih => exact ih.setWindowSize size

end Accumulator

/-! ## Registries -/

namespace Registry

/-- All functions do what they say of taking values back. -/
def HonorsSupport (r : Registry σ) : Prop := ∀ p ∈ r.entries, p.2.HonorsSupport

theorem honorsSupport_builtin : (builtin : Registry σ).HonorsSupport := by
  intro p hp
  rcases mem_foldl_insert hp with hp | ⟨hmem, -⟩
  · cases hp
  · have hbuiltin : p.2.IsBuiltin := (Accumulator.isNew_of_mem_builtins hmem).1
    revert hbuiltin
    cases p.2 <;> first | exact fun _ => trivial | exact False.elim

end Registry

end SqlWindow
