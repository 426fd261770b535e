import Mathlib.Data.List.Forall2
import SqlWindow.Proofs.Preserves

set_option autoImplicit false

/-! # Actions that agree

Two actions agree when, started in related states, they answer the same: both succeed with one
result or both fail with one error. The states behind a success are related again, and so are
the states behind an error, though not always in the same way.

`Agree P Q E x y` names the three relations: `P` before, `Q` behind a success, `E` behind an
error. There is one rule for each way in which actions are put together, so that two runs are
followed side by side without looking into either.
-/

namespace SqlWindow

namespace Action

variable {σ τ σ' τ' α β : Type} {P Q R E : σ → τ → Prop}

/-- Two results are alike: one answer, and states that are related. -/
inductive Alike (Q E : σ → τ → Prop) :
    EStateM.Result Error σ α → EStateM.Result Error τ α → Prop where
  | ok {a : α} {s : σ} {t : τ} (h : Q s t) : Alike Q E (.ok a s) (.ok a t)
  | error {e : Error} {s : σ} {t : τ} (h : E s t) : Alike Q E (.error e s) (.error e t)

/-- From states related by `P` the actions answer the same, and leave states behind that are
related by `Q` after a success and by `E` after an error. -/
def Agree (P Q E : σ → τ → Prop) (x : Action σ α) (y : Action τ α) : Prop :=
  ∀ s t, P s t → Alike Q E (x s) (y t)

/-- Both parts of two states are related. -/
def Abreast (P : σ → τ → Prop) (T : σ' → τ' → Prop) (s : σ × σ') (t : τ × τ') : Prop :=
  P s.1 t.1 ∧ T s.2 t.2

theorem Alike.mono {Q' E' : σ → τ → Prop} {r : EStateM.Result Error σ α}
    {q : EStateM.Result Error τ α} (h : Alike Q E r q) (hQ : ∀ s t, Q s t → Q' s t)
    (hE : ∀ s t, E s t → E' s t) : Alike Q' E' r q := by
  cases h with
  | ok h => exact .ok (hQ _ _ h)
  | error h => exact .error (hE _ _ h)

namespace Agree

variable {x : Action σ α} {y : Action τ α}

theorem mono {P' Q' E' : σ → τ → Prop} (h : Agree P Q E x y) (hP : ∀ s t, P' s t → P s t)
    (hQ : ∀ s t, Q s t → Q' s t) (hE : ∀ s t, E s t → E' s t) : Agree P' Q' E' x y :=
  fun s t hst => (h s t (hP s t hst)).mono hQ hE

/-- In one state an action does one thing. -/
theorem refl (x : Action σ α) : Agree Eq Eq Eq x x := by
  rintro s _ rfl
  cases x s with
  | ok a t => exact .ok rfl
  | error e t => exact .error rfl

/-! ## What follows from agreement -/

/-- The answers are the same. -/
theorem fst_outcome (h : Agree P Q E x y) {s : σ} {t : τ} (hst : P s t) :
    (x.outcome s).1 = (y.outcome t).1 := by
  have halike := h s t hst
  simp only [outcome]
  generalize x s = r at halike
  generalize y t = q at halike
  cases halike <;> rfl

/-- The states behind the actions are related, where success and error do not differ. -/
theorem snd_outcome (h : Agree P Q Q x y) {s : σ} {t : τ} (hst : P s t) :
    Q (x.outcome s).2 (y.outcome t).2 := by
  have halike := h s t hst
  simp only [outcome]
  generalize x s = r at halike
  generalize y t = q at halike
  cases halike with
  | ok h => exact h
  | error h => exact h

/-- Where one succeeds, so does the other. -/
theorem exists_ok (h : Agree P Q E x y) {s : σ} {t : τ} (hst : P s t) {a : α} {t' : τ}
    (hy : y t = .ok a t') : ∃ s', x s = .ok a s' ∧ Q s' t' := by
  have halike := h s t hst
  rw [hy] at halike
  generalize x s = r at halike
  cases halike with
  | ok h => exact ⟨_, rfl, h⟩

/-! ## Rules -/

theorem pure (a : α) : Agree Q Q E (pure a : Action σ α) (pure a) := fun _ _ h => .ok h

theorem throw (e : Error) : Agree E Q E (throw e : Action σ α) (throw e) := fun _ _ h => .error h

theorem ofExcept (a : Except Error α) : Agree Q Q Q (Action.ofExcept a) (Action.ofExcept a) := by
  cases a with
  | ok a => exact .pure a
  | error e => exact .throw e

theorem bind {k : α → Action σ β} {l : α → Action τ β} (h : Agree P Q E x y)
    (hk : ∀ a, Agree Q R E (k a) (l a)) : Agree P R E (x >>= k) (y >>= l) := by
  intro s t hst
  have halike := h s t hst
  show Alike R E (EStateM.bind x k s) (EStateM.bind y l t)
  simp only [EStateM.bind]
  generalize x s = r at halike
  generalize y t = q at halike
  cases halike with
  | ok h => exact hk _ _ _ h
  | error h => exact .error h

theorem discard (h : Agree P Q E x y) : Agree P Q E (discard x) (discard y) :=
  h.bind fun _ => .pure PUnit.unit

/-- Both states are looked at; how the actions go on may rely on their relation. -/
theorem get {k : σ → Action σ β} {l : τ → Action τ β}
    (hk : ∀ s t, P s t → Agree P Q E (k s) (l t)) : Agree P Q E (get >>= k) (get >>= l) :=
  fun s t h => hk s t h s t h

theorem modify {f : σ → σ} {g : τ → τ} (h : ∀ s t, P s t → Q (f s) (g t)) :
    Agree P Q E (modify f : Action σ PUnit) (modify g) :=
  fun s t hst => .ok (h s t hst)

theorem andFinally {Q' E' : σ → τ → Prop} {f : σ → σ} {g : τ → τ} (h : Agree P Q E x y)
    (hQ : ∀ s t, Q s t → Q' (f s) (g t)) (hE : ∀ s t, E s t → E' (f s) (g t)) :
    Agree P Q' E' (x.andFinally f) (y.andFinally g) := by
  intro s t hst
  have halike := h s t hst
  simp only [Action.andFinally]
  generalize x s = r at halike
  generalize y t = q at halike
  cases halike with
  | ok h => exact .ok (hQ _ _ h)
  | error h => exact .error (hE _ _ h)

/-- Actions on parts agree on the whole, when the whole that gets the parts back is related. -/
theorem onPart {P' Q' E' : σ' → τ' → Prop} {part : σ' → σ} {withPart : σ' → σ → σ'}
    {part' : τ' → τ} {withPart' : τ' → τ → τ'} (h : Agree P Q E x y)
    (hP : ∀ s t, P' s t → P (part s) (part' t))
    (hQ : ∀ s t, P' s t → ∀ p q, Q p q → Q' (withPart s p) (withPart' t q))
    (hE : ∀ s t, P' s t → ∀ p q, E p q → E' (withPart s p) (withPart' t q)) :
    Agree P' Q' E' (Action.onPart part withPart x) (Action.onPart part' withPart' y) := by
  intro s t hst
  have halike := h _ _ (hP s t hst)
  simp only [Action.onPart]
  generalize x (part s) = r at halike
  generalize y (part' t) = q at halike
  cases halike with
  | ok h => exact .ok (hQ s t hst _ _ h)
  | error h => exact .error (hE s t hst _ _ h)

theorem onFirst {T : σ' → τ' → Prop} (h : Agree P Q E x y) :
    Agree (Abreast P T) (Abreast Q T) (Abreast E T) (Action.onFirst x) (Action.onFirst y) :=
  h.onPart (fun _ _ hst => hst.1) (fun _ _ hst _ _ hpq => ⟨hpq, hst.2⟩)
    fun _ _ hst _ _ hpq => ⟨hpq, hst.2⟩

theorem onSecond {T : σ' → τ' → Prop} (h : Agree P Q E x y) :
    Agree (Abreast T P) (Abreast T Q) (Abreast T E) (Action.onSecond x) (Action.onSecond y) :=
  h.onPart (fun _ _ hst => hst.2) (fun _ _ hst _ _ hpq => ⟨hst.1, hpq⟩)
    fun _ _ hst _ _ hpq => ⟨hst.1, hpq⟩

theorem forM {γ : Type} {f : γ → Action σ PUnit} {g : γ → Action τ PUnit} {cs : List γ}
    (h : ∀ c ∈ cs, Agree Q Q E (f c) (g c)) : Agree Q Q E (cs.forM f) (cs.forM g) := by
  induction cs with
  | nil => exact .pure PUnit.unit
  | cons c cs ih =>
    have hrest := ih fun d hd => h d (List.mem_cons_of_mem c hd)
    exact (h c List.mem_cons_self).bind fun _ => hrest

/-- Actions on each of some states, which are related pair by pair. When one fails, the states
before it are related as behind a success and those behind it as before the action. -/
theorem onEach {T : σ' → τ' → Prop} {x : Action (σ × σ') α} {y : Action (τ × τ') α}
    (h : Agree (Abreast P T) (Abreast Q T) (Abreast E T) x y) (hP : ∀ s t, P s t → E s t)
    (hQ : ∀ s t, Q s t → E s t) :
    Agree (Abreast (List.Forall₂ P) T) (Abreast (List.Forall₂ Q) T) (Abreast (List.Forall₂ E) T)
      (Action.onEach x) (Action.onEach y) := by
  rintro ⟨ss, s'⟩ ⟨ts, t'⟩ ⟨hall, hshared⟩
  show Alike _ _ (runEach x ss s') (runEach y ts t')
  dsimp only at hall hshared
  induction hall generalizing s' t' with
  | nil => exact .ok ⟨.nil, hshared⟩
  | @cons s t ss ts hst hrest ih =>
    have hone := h (s, s') (t, t') ⟨hst, hshared⟩
    simp only [runEach]
    generalize x (s, s') = r at hone
    generalize y (t, t') = q at hone
    cases hone with
    | error hE => exact .error ⟨.cons hE.1 (hrest.imp hP), hE.2⟩
    | @ok a s₁ t₁ hok =>
      have hothers := ih s₁.2 t₁.2 hok.2
      obtain ⟨s₁, s₁'⟩ := s₁
      obtain ⟨t₁, t₁'⟩ := t₁
      dsimp only at hothers ⊢
      generalize runEach x ss s₁' = r at hothers
      generalize runEach y ts t₁' = q at hothers
      cases hothers with
      | error hE => exact .error ⟨.cons (hQ _ _ hok.1) hE.1, hE.2⟩
      | ok hok' => exact .ok ⟨.cons hok.1 hok'.1, hok'.2⟩

end Agree

end Action

end SqlWindow
