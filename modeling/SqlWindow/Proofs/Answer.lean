import Mathlib.Data.List.Forall2
import SqlWindow.Error

set_option autoImplicit false

/-! # Answers that may be errors

How a sequence of steps that can fail, and a step over all members of a list, come to succeed. Of
the ways to fail, that a function cannot take values back is one apart.
-/

namespace SqlWindow

/-- The error says that a function cannot take values back. -/
def Error.isAboutRetraction : Error → Bool
  | retractionNotSupported _ _ => true
  | _ => false

namespace Answer

variable {α β : Type}

/-! ## Sequences -/

theorem bind_of_ok {x : Except Error α} {f : α → Except Error β} {a : α} (h : x = .ok a) :
    (x >>= f) = f a := by
  rw [h]
  rfl

/-- A sequence that succeeds is two successes. -/
theorem ok_of_bind_ok {x : Except Error α} {f : α → Except Error β} {b : β}
    (h : (x >>= f) = .ok b) : ∃ a, x = .ok a ∧ f a = .ok b := by
  cases x with
  | ok a => exact ⟨a, rfl, h⟩
  | error e => cases h

/-- A sequence that fails fails in its first part, or in its second behind a success. -/
theorem error_of_bind_error {x : Except Error α} {f : α → Except Error β} {e : Error}
    (h : (x >>= f) = .error e) : x = .error e ∨ ∃ a, x = .ok a ∧ f a = .error e := by
  cases x with
  | ok a => exact .inr ⟨a, rfl, h⟩
  | error e' =>
    cases h
    exact .inl rfl

theorem bind_eq_ok_iff {x : Except Error α} {f : α → Except Error β} {b : β} :
    (x >>= f) = .ok b ↔ ∃ a, x = .ok a ∧ f a = .ok b := by
  refine ⟨ok_of_bind_ok, ?_⟩
  rintro ⟨a, ha, hb⟩
  rw [bind_of_ok ha, hb]

theorem map_eq_ok_iff {x : Except Error α} {f : α → β} {b : β} :
    f <$> x = .ok b ↔ ∃ a, x = .ok a ∧ f a = b := by
  cases x with
  | ok a =>
    show Except.ok (f a) = _ ↔ _
    simp
  | error e =>
    show Except.error e = _ ↔ _
    simp

theorem discard_eq_ok_iff {x : Except Error α} : discard x = .ok () ↔ ∃ a, x = .ok a := by
  show Functor.map _ x = _ ↔ _
  rw [map_eq_ok_iff]
  simp

/-! ## Lists -/

theorem forM_congr {f g : α → Except Error Unit} {xs : List α} (h : ∀ x ∈ xs, f x = g x) :
    xs.forM f = xs.forM g := by
  induction xs with
  | nil => rfl
  | cons x xs ih =>
    show (f x >>= fun _ => xs.forM f) = (g x >>= fun _ => xs.forM g)
    rw [h x List.mem_cons_self, ih fun y hy => h y (List.mem_cons_of_mem x hy)]

theorem mapM_congr {f g : α → Except Error β} {xs : List α} (h : ∀ x ∈ xs, f x = g x) :
    xs.mapM f = xs.mapM g := by
  induction xs with
  | nil => rfl
  | cons x xs ih =>
    rw [List.mapM_cons, List.mapM_cons, h x List.mem_cons_self,
      ih fun y hy => h y (List.mem_cons_of_mem x hy)]

/-- A check of all members succeeds when it does for each. -/
theorem forM_eq_ok_iff {f : α → Except Error Unit} {xs : List α} :
    xs.forM f = .ok () ↔ ∀ x ∈ xs, f x = .ok () := by
  induction xs with
  | nil => simp [List.forM, pure, Except.pure]
  | cons x xs ih =>
    show (f x >>= fun _ => xs.forM f) = _ ↔ _
    rw [bind_eq_ok_iff, List.forall_mem_cons, ← ih]
    exact ⟨fun ⟨⟨⟩, hx, hxs⟩ => ⟨hx, hxs⟩, fun ⟨hx, hxs⟩ => ⟨⟨⟩, hx, hxs⟩⟩

/-- A list of answers is the answer of each member. -/
theorem mapM_eq_ok_iff {f : α → Except Error β} {xs : List α} {ys : List β} :
    xs.mapM f = .ok ys ↔ xs.map f = ys.map Except.ok := by
  induction xs generalizing ys with
  | nil => cases ys <;> simp [pure, Except.pure]
  | cons x xs ih =>
    rw [List.mapM_cons, bind_eq_ok_iff, List.map_cons]
    simp only [bind_eq_ok_iff, ih]
    cases ys with
    | nil => simp [pure, Except.pure]
    | cons y ys => simp [pure, Except.pure]

theorem exists_mapM_eq_ok {f : α → Except Error β} {xs : List α}
    (h : ∀ x ∈ xs, ∃ y, f x = .ok y) : ∃ ys, xs.mapM f = .ok ys := by
  induction xs with
  | nil => exact ⟨[], rfl⟩
  | cons x xs ih =>
    obtain ⟨y, hy⟩ := h x List.mem_cons_self
    obtain ⟨ys, hys⟩ := ih fun x hx => h x (List.mem_cons_of_mem _ hx)
    exact ⟨y :: ys, by rw [List.mapM_cons, bind_of_ok hy, bind_of_ok hys]; rfl⟩

theorem exists_of_mem_mapM {f : α → Except Error β} {xs : List α} {ys : List β} {y : β}
    (h : xs.mapM f = .ok ys) (hy : y ∈ ys) : ∃ x ∈ xs, f x = .ok y := by
  have hmem : Except.ok y ∈ xs.map f := by
    rw [mapM_eq_ok_iff.mp h]
    exact List.mem_map_of_mem hy
  exact List.mem_map.mp hmem

/-- What follows from each answer on its own follows for the lists. -/
theorem mapM_eq_ok_map {γ : Type} {f : α → Except Error β} {g : α → Except Error γ} {k : β → γ}
    {xs : List α} {ys : List β} (h : xs.mapM f = .ok ys)
    (hg : ∀ x ∈ xs, ∀ y, f x = .ok y → y ∈ ys → g x = .ok (k y)) :
    xs.mapM g = .ok (ys.map k) := by
  rw [mapM_eq_ok_iff] at h ⊢
  rw [List.map_map]
  induction xs generalizing ys with
  | nil =>
    rw [List.map_nil] at h
    rw [List.map_eq_nil_iff.mp h.symm, List.map_nil, List.map_nil]
  | cons x xs ih =>
    cases ys with
    | nil => cases h
    | cons y ys =>
      rw [List.map_cons, List.map_cons, List.cons.injEq] at h
      rw [List.map_cons, List.map_cons, hg x List.mem_cons_self y h.1 List.mem_cons_self,
        ih h.2 fun x hx y hfx hy =>
          hg x (List.mem_cons_of_mem _ hx) y hfx (List.mem_cons_of_mem _ hy)]
      rfl

/-- What relates to the answers relates to what they were answered to. -/
theorem forall₂_of_map_eq {γ : Type} {f : α → Except Error β} {R : β → γ → Prop} {xs : List α}
    {ys : List β} {zs : List γ} (h : xs.map f = ys.map Except.ok) (hR : List.Forall₂ R ys zs) :
    List.Forall₂ (fun x z => ∃ y, f x = .ok y ∧ R y z) xs zs := by
  induction hR generalizing xs with
  | nil =>
    rw [List.map_eq_nil_iff.mp h]
    exact .nil
  | cons hyz _ ih =>
    cases xs with
    | nil => cases h
    | cons x xs =>
      rw [List.map_cons, List.map_cons, List.cons.injEq] at h
      exact .cons ⟨_, h.1, hyz⟩ (ih h.2)

/-- Steps that each apply what they relate to succeed by applying it all. -/
theorem foldlM_eq_ok_iff {γ : Type} {f : β → α → Except Error β} {R : α → γ → Prop}
    {g : β → γ → β} (hf : ∀ b x b', f b x = .ok b' ↔ ∃ z, R x z ∧ b' = g b z) {xs : List α}
    {b b' : β} : xs.foldlM f b = .ok b' ↔ ∃ zs, List.Forall₂ R xs zs ∧ b' = zs.foldl g b := by
  induction xs generalizing b with
  | nil =>
    constructor
    · rintro ⟨⟩
      exact ⟨[], .nil, rfl⟩
    · rintro ⟨_, ⟨⟩, rfl⟩
      rfl
  | cons x xs ih =>
    rw [List.foldlM_cons, bind_eq_ok_iff]
    constructor
    · rintro ⟨_, hx, hxs⟩
      obtain ⟨z, hz, rfl⟩ := (hf b x _).mp hx
      obtain ⟨zs, hzs, rfl⟩ := ih.mp hxs
      exact ⟨z :: zs, .cons hz hzs, rfl⟩
    · rintro ⟨_, hzs, rfl⟩
      cases hzs with
      | cons hz hzs => exact ⟨_, (hf b x _).mpr ⟨_, hz, rfl⟩, ih.mpr ⟨_, hzs, rfl⟩⟩

/-- Steps that fail do so in one of them. -/
theorem exists_of_foldlM_eq_error {f : β → α → Except Error β} {xs : List α} {b : β} {e : Error}
    (h : xs.foldlM f b = .error e) : ∃ x ∈ xs, ∃ b, f b x = .error e := by
  induction xs generalizing b with
  | nil => cases h
  | cons x xs ih =>
    rw [List.foldlM_cons] at h
    rcases error_of_bind_error h with hx | ⟨_, -, hxs⟩
    · exact ⟨x, List.mem_cons_self, b, hx⟩
    · obtain ⟨y, hy, hfail⟩ := ih hxs
      exact ⟨y, List.mem_cons_of_mem x hy, hfail⟩

/-! ## Plain errors -/

/-- An answer that, if it is an error, is not about retraction. -/
def IsPlain (r : Except Error α) : Prop :=
  ∀ e, r = .error e → e.isAboutRetraction = false

namespace IsPlain

theorem ok (a : α) : IsPlain (.ok a) := fun _ he => by cases he

theorem error {e : Error} (h : e.isAboutRetraction = false) : IsPlain (.error e : Except Error α) :=
  fun _ he => by cases he; exact h

theorem bind {r : Except Error α} {k : α → Except Error β} (hr : IsPlain r)
    (hk : ∀ a, IsPlain (k a)) : IsPlain (r >>= k) := by
  cases r with
  | ok a => exact hk a
  | error e => exact .error (hr e rfl)

end IsPlain

end Answer

end SqlWindow
