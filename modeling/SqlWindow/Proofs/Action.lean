import SqlWindow.Action

set_option autoImplicit false

/-! # Laws of actions

How a sequence of two actions runs, read forward when the first one is known and backward when
the whole is known.
-/

namespace SqlWindow

namespace Action

variable {σ τ α β : Type}

/-! ## Sequences -/

@[simp] theorem get_bind (f : σ → Action σ β) (s : σ) : (get >>= f) s = f s s := rfl

@[simp] theorem modify_bind (g : σ → σ) (f : PUnit → Action σ β) (s : σ) :
    (modify g >>= f) s = f ⟨⟩ (g s) := rfl

@[simp] theorem modify_run (g : σ → σ) (s : σ) :
    (modify g : Action σ PUnit) s = .ok ⟨⟩ (g s) := rfl

@[simp] theorem ofExcept_ok_bind (a : α) (f : α → Action σ β) (s : σ) :
    (ofExcept (.ok a) >>= f) s = f a s := rfl

theorem bind_of_ok {x : Action σ α} {f : α → Action σ β} {s t : σ} {a : α}
    (h : x s = .ok a t) : (x >>= f) s = f a t := by
  show EStateM.bind x f s = _
  rw [EStateM.bind, h]

theorem bind_of_error {x : Action σ α} {f : α → Action σ β} {s t : σ} {e : Error}
    (h : x s = .error e t) : (x >>= f) s = .error e t := by
  show EStateM.bind x f s = _
  rw [EStateM.bind, h]

theorem onPart_of_ok {part : σ → τ} {withPart : σ → τ → σ} {x : Action τ α} {s : σ} {a : α} {t : τ}
    (h : x (part s) = .ok a t) : onPart part withPart x s = .ok a (withPart s t) := by
  rw [onPart, h]

theorem onPart_of_error {part : σ → τ} {withPart : σ → τ → σ} {x : Action τ α} {s : σ} {e : Error}
    {t : τ} (h : x (part s) = .error e t) : onPart part withPart x s = .error e (withPart s t) := by
  rw [onPart, h]

theorem onFirst_of_ok {x : Action σ α} {s : σ × τ} {a : α} {t : σ} (h : x s.1 = .ok a t) :
    onFirst x s = .ok a (t, s.2) :=
  onPart_of_ok h

theorem onFirst_of_error {x : Action σ α} {s : σ × τ} {e : Error} {t : σ} (h : x s.1 = .error e t) :
    onFirst x s = .error e (t, s.2) :=
  onPart_of_error h

theorem onSecond_of_ok {x : Action τ α} {s : σ × τ} {a : α} {t : τ} (h : x s.2 = .ok a t) :
    onSecond x s = .ok a (s.1, t) :=
  onPart_of_ok h

theorem onSecond_of_error {x : Action τ α} {s : σ × τ} {e : Error} {t : τ}
    (h : x s.2 = .error e t) : onSecond x s = .error e (s.1, t) :=
  onPart_of_error h

/-- A sequence that succeeds is two successes. -/
theorem ok_of_bind_ok {x : Action σ α} {f : α → Action σ β} {s u : σ} {b : β}
    (h : (x >>= f) s = .ok b u) : ∃ a t, x s = .ok a t ∧ f a t = .ok b u := by
  cases hx : x s with
  | ok a t =>
    rw [bind_of_ok hx] at h
    exact ⟨a, t, rfl, h⟩
  | error e t =>
    rw [bind_of_error hx] at h
    cases h

end Action

end SqlWindow
