import Mathlib.Data.List.Forall2
import SqlWindow.Proofs.Action

set_option autoImplicit false

/-! # What an action leads to

`Meets P Q E x` says of an action what holds of its answer and of the states around it: started
where `P` holds, it ends with an answer and a state of which `Q` holds, or with an error and a state
of which `E` holds. There is one rule for each way in which actions are put together.
-/

namespace SqlWindow

namespace Action

variable {σ τ ρ α β : Type}

/-- A result, with what holds of it in either case. -/
inductive Ends (Q : α → σ → Prop) (E : Error → σ → Prop) : EStateM.Result Error σ α → Prop where
  | ok {a : α} {s : σ} (h : Q a s) : Ends Q E (.ok a s)
  | error {e : Error} {s : σ} (h : E e s) : Ends Q E (.error e s)

/-- From states with `P` the action ends with `Q` where it succeeds, and with `E` where it fails. -/
def Meets (P : σ → Prop) (Q : α → σ → Prop) (E : Error → σ → Prop) (x : Action σ α) : Prop :=
  ∀ s, P s → Ends Q E (x s)

/-- The action keeps the property in both cases, and the errors it fails with are among `F`. -/
def Maintains (F : Error → Prop) (I : σ → Prop) (x : Action σ α) : Prop :=
  Meets I (fun _ => I) (fun e s => F e ∧ I s) x

variable {P : σ → Prop} {Q : α → σ → Prop} {E : Error → σ → Prop} {x : Action σ α}

theorem Ends.imp {Q' : α → σ → Prop} {E' : Error → σ → Prop} {r : EStateM.Result Error σ α}
    (h : Ends Q E r) (hQ : ∀ a s, Q a s → Q' a s) (hE : ∀ e s, E e s → E' e s) : Ends Q' E' r := by
  cases h with
  | ok h => exact .ok (hQ _ _ h)
  | error h => exact .error (hE _ _ h)

theorem ends_ok_iff {a : α} {s : σ} : Ends Q E (.ok a s) ↔ Q a s :=
  ⟨fun h => by cases h; assumption, .ok⟩

theorem ends_error_iff {e : Error} {s : σ} : Ends Q E (.error e s) ↔ E e s :=
  ⟨fun h => by cases h; assumption, .error⟩

namespace Meets

theorem of_ok (h : Meets P Q E x) {s t : σ} {a : α} (hs : P s) (hx : x s = .ok a t) : Q a t :=
  ends_ok_iff.mp (hx ▸ h s hs)

theorem of_error (h : Meets P Q E x) {s t : σ} {e : Error} (hs : P s) (hx : x s = .error e t) :
    E e t :=
  ends_error_iff.mp (hx ▸ h s hs)

theorem imp {P' : σ → Prop} {Q' : α → σ → Prop} {E' : Error → σ → Prop} (h : Meets P Q E x)
    (hP : ∀ s, P' s → P s) (hQ : ∀ a s, Q a s → Q' a s) (hE : ∀ e s, E e s → E' e s) :
    Meets P' Q' E' x :=
  fun s hs => (h s (hP s hs)).imp hQ hE

/-- What is known apart from the state can be used from there on. -/
theorem assume {p : Prop} (h : p → Meets P Q E x) : Meets (fun s => p ∧ P s) Q E x :=
  fun s hs => h hs.1 s hs.2

theorem ofExists {ι : Type} {P : ι → σ → Prop} (h : ∀ i, Meets (P i) Q E x) :
    Meets (fun s => ∃ i, P i s) Q E x := by
  rintro s ⟨i, hs⟩
  exact h i s hs

/-! ## Sequences -/

theorem pure {a : α} (h : ∀ s, P s → Q a s) : Meets P Q E (pure a) := fun s hs => .ok (h s hs)

theorem ofExcept {r : Except Error α} (hok : ∀ a s, r = .ok a → P s → Q a s)
    (herror : ∀ e s, r = .error e → P s → E e s) : Meets P Q E (Action.ofExcept r) := by
  intro s hs
  cases r with
  | ok a => exact .ok (hok a s rfl hs)
  | error e => exact .error (herror e s rfl hs)

theorem bind {R : α → σ → Prop} {Q : β → σ → Prop} {k : α → Action σ β} (hx : Meets P R E x)
    (hk : ∀ a, Meets (R a) Q E (k a)) : Meets P Q E (x >>= k) := by
  intro s hs
  cases hxs : x s with
  | ok a t =>
    rw [bind_of_ok hxs]
    exact hk a t (hx.of_ok hs hxs)
  | error e t =>
    rw [bind_of_error hxs]
    exact .error (hx.of_error hs hxs)

theorem discard {Q : σ → Prop} (hx : Meets P (fun _ => Q) E x) :
    Meets P (fun _ => Q) E (discard x) :=
  hx.bind fun _ => .pure fun _ hs => hs

/-- The state is looked at; what goes on from there may rely on what holds of it. -/
theorem get {Q : β → σ → Prop} {k : σ → Action σ β} (hk : ∀ s, P s → Meets P Q E (k s)) :
    Meets P Q E (get >>= k) :=
  fun s hs => hk s hs s hs

theorem set {Q : PUnit → σ → Prop} {t : σ} (ht : Q ⟨⟩ t) : Meets P Q E (set t) := fun _ _ => .ok ht

theorem modify {Q : PUnit → σ → Prop} {m : σ → σ} (hm : ∀ s, P s → Q ⟨⟩ (m s)) :
    Meets P Q E (modify m) := fun s hs => .ok (hm s hs)

theorem forM {E : Error → σ → Prop} {xs : List β} {f : β → Action σ PUnit}
    (hf : ∀ b ∈ xs, Meets P (fun _ => P) E (f b)) : Meets P (fun _ => P) E (xs.forM f) := by
  induction xs with
  | nil => exact .pure fun _ hs => hs
  | cons b xs ih =>
    exact (hf b List.mem_cons_self).bind fun _ => ih fun c hc => hf c (List.mem_cons_of_mem b hc)

theorem andFinally {Q' : α → σ → Prop} {E' : Error → σ → Prop} {change : σ → σ}
    (hx : Meets P Q E x) (hQ : ∀ a s, Q a s → Q' a (change s))
    (hE : ∀ e s, E e s → E' e (change s)) : Meets P Q' E' (x.andFinally change) := by
  intro s hs
  rw [Action.andFinally]
  cases hxs : x s with
  | ok a t => exact .ok (hQ a t (hx.of_ok hs hxs))
  | error e t => exact .error (hE e t (hx.of_error hs hxs))

/-! ## Parts of the state -/

theorem onPart {P' : τ → Prop} {Q' : α → τ → Prop} {E' : Error → τ → Prop} {part : σ → τ}
    {withPart : σ → τ → σ} {x : Action τ α} (hx : Meets P' Q' E' x) (hpart : ∀ s, P s → P' (part s))
    (hok : ∀ s a t, P s → Q' a t → Q a (withPart s t))
    (herror : ∀ s e t, P s → E' e t → E e (withPart s t)) :
    Meets P Q E (Action.onPart part withPart x) := by
  intro s hs
  rw [Action.onPart]
  cases hxs : x (part s) with
  | ok a t => exact .ok (hok s a t hs (hx.of_ok (hpart s hs) hxs))
  | error e t => exact .error (herror s e t hs (hx.of_error (hpart s hs) hxs))

/-- A step on the first of two states leaves alone what holds of the second. -/
theorem onFirst {A : α → Prop} {F : Error → Prop} {Q R : σ → Prop} {T : τ → Prop}
    (hx : Meets P (fun a s => A a ∧ Q s) (fun e s => F e ∧ R s) x) :
    Meets (fun s : σ × τ => P s.1 ∧ T s.2) (fun a s => A a ∧ Q s.1 ∧ T s.2)
      (fun e s => F e ∧ R s.1 ∧ T s.2) (Action.onFirst x) :=
  hx.onPart (fun _ hs => hs.1) (fun _ _ _ hs ht => ⟨ht.1, ht.2, hs.2⟩)
    fun _ _ _ hs ht => ⟨ht.1, ht.2, hs.2⟩

/-- An action on each of some states, beside a shared one. Behind an error, some of them have been
acted on and others not, so `K` has to cover both. -/
theorem onEach {I J K : ρ → σ → Prop} {A : ρ → α → Prop} {T : τ → Prop} {F : Error → Prop}
    {rs : List ρ} {x : Action (σ × τ) α}
    (hx : ∀ r ∈ rs, Meets (fun s => I r s.1 ∧ T s.2) (fun a s => A r a ∧ J r s.1 ∧ T s.2)
      (fun e s => F e ∧ K r s.1 ∧ T s.2) x)
    (hI : ∀ r s, I r s → K r s) (hJ : ∀ r s, J r s → K r s) :
    Meets (fun s => List.Forall₂ I rs s.1 ∧ T s.2)
      (fun as s => List.Forall₂ A rs as ∧ List.Forall₂ J rs s.1 ∧ T s.2)
      (fun e s => F e ∧ List.Forall₂ K rs s.1 ∧ T s.2) (Action.onEach x) := by
  rintro ⟨states, shared⟩ ⟨hstates, hshared⟩
  dsimp only at hstates hshared
  induction hstates generalizing shared with
  | nil => exact .ok ⟨.nil, .nil, hshared⟩
  | @cons r s rs states hs hrest ih =>
    have hfirst := hx r List.mem_cons_self
    have hstart : I r (s, shared).1 ∧ T (s, shared).2 := ⟨hs, hshared⟩
    show Ends _ _ (runEach x (s :: states) shared)
    rw [runEach]
    cases hxs : x (s, shared) with
    -- behind the state that fails all others stay as they are
    | error e p =>
      obtain ⟨hF, hK, hT⟩ := hfirst.of_error hstart hxs
      exact .error ⟨hF, .cons hK (hrest.imp hI), hT⟩
    | ok a p =>
      obtain ⟨s', shared'⟩ := p
      obtain ⟨hA, hJ', hT⟩ := hfirst.of_ok hstart hxs
      have hothers : Ends _ _ (runEach x states shared') :=
        ih (fun q hq => hx q (List.mem_cons_of_mem _ hq)) shared' hT
      dsimp only
      cases hrun : runEach x states shared' with
      | error e q =>
        rw [hrun, ends_error_iff] at hothers
        exact .error ⟨hothers.1, .cons (hJ r s' hJ') hothers.2.1, hothers.2.2⟩
      | ok as q =>
        rw [hrun, ends_ok_iff] at hothers
        exact .ok ⟨.cons hA hothers.1, .cons hJ' hothers.2.1, hothers.2.2⟩

end Meets

/-! ## What is kept in both cases -/

namespace Maintains

variable {I : σ → Prop} {F : Error → Prop}

theorem onFirst {T : τ → Prop} (hx : Maintains F I x) :
    Maintains F (fun s : σ × τ => I s.1 ∧ T s.2) (Action.onFirst x) :=
  hx.onPart (fun _ hs => hs.1) (fun _ _ _ hs ht => ⟨ht, hs.2⟩)
    fun _ _ _ hs ht => ⟨ht.1, ht.2, hs.2⟩

theorem onSecond {T : τ → Prop} (hx : Maintains F I x) :
    Maintains F (fun s : τ × σ => T s.1 ∧ I s.2) (Action.onSecond x) :=
  hx.onPart (fun _ hs => hs.2) (fun _ _ _ hs ht => ⟨hs.1, ht⟩)
    fun _ _ _ hs ht => ⟨ht.1, hs.1, ht.2⟩

theorem onEach {G : ρ → σ → Prop} {T : τ → Prop} {rs : List ρ} {x : Action (σ × τ) α}
    (hx : ∀ r ∈ rs, Maintains F (fun s => G r s.1 ∧ T s.2) x) :
    Maintains F (fun s => List.Forall₂ G rs s.1 ∧ T s.2) (Action.onEach x) := by
  have heach (r : ρ) (hr : r ∈ rs) : Meets (fun s : σ × τ => G r s.1 ∧ T s.2)
      (fun _ s => True ∧ G r s.1 ∧ T s.2) (fun e s => F e ∧ G r s.1 ∧ T s.2) x :=
    (hx r hr).imp (fun _ hs => hs) (fun _ _ hs => ⟨trivial, hs⟩) fun _ _ hs => hs
  exact (Meets.onEach (A := fun _ _ => True) heach (fun _ _ hs => hs) fun _ _ hs => hs).imp
    (fun _ hs => hs) (fun _ _ hs => hs.2) fun _ _ hs => hs

end Maintains

end Action

end SqlWindow
