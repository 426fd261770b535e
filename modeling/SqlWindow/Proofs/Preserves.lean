import SqlWindow.Proofs.Meets

set_option autoImplicit false

/-! # What an action keeps

A property of states that an action keeps holds behind it whether the action succeeds or fails.
One rule for each way in which actions are put together.
-/

namespace SqlWindow

namespace Action

variable {σ τ ρ α β : Type} {P : σ → Prop}

/-- The property holds behind the action, also after an error, when it holds before. -/
def Preserves (P : σ → Prop) (x : Action σ α) : Prop := ∀ s, P s → P (x.outcome s).2

theorem outcome_of_ok {x : Action σ α} {s t : σ} {a : α} (h : x s = .ok a t) :
    x.outcome s = (.ok a, t) := by
  rw [outcome, h]

theorem outcome_of_error {x : Action σ α} {s t : σ} {e : Error} (h : x s = .error e t) :
    x.outcome s = (.error e, t) := by
  rw [outcome, h]

/-- Only the answer of an action is changed. -/
theorem outcome_bind_pure (x : Action σ α) (g : α → β) (s : σ) :
    (x >>= fun a => pure (g a)).outcome s = ((x.outcome s).1.map g, (x.outcome s).2) := by
  cases hx : x s with
  | ok a t =>
    have hbind : (x >>= fun a => pure (g a)) s = .ok (g a) t := bind_of_ok hx
    rw [outcome_of_ok hx, outcome_of_ok hbind]
    rfl
  | error e t =>
    rw [outcome_of_error hx, outcome_of_error (bind_of_error hx)]
    rfl

/-- What is kept is maintained, whatever errors there are. -/
theorem preserves_iff {x : Action σ α} : Preserves P x ↔ Maintains (fun _ => True) P x := by
  refine forall₂_congr fun s _ => ?_
  cases hxs : x s with
  | ok a t => rw [outcome_of_ok hxs, ends_ok_iff]
  | error e t => rw [outcome_of_error hxs, ends_error_iff, true_and]

namespace Preserves

/-- What is kept holds behind a success. -/
theorem of_ok {x : Action σ α} {s t : σ} {a : α} (h : Preserves P x) (hs : P s)
    (hx : x s = .ok a t) : P t :=
  (preserves_iff.mp h).of_ok hs hx

theorem pure (a : α) : Preserves P (pure a : Action σ α) := fun _ hs => hs

theorem ofExcept (e : Except Error α) : Preserves P (Action.ofExcept e) :=
  preserves_iff.mpr (.ofExcept (fun _ _ _ hs => hs) fun _ _ _ hs => ⟨trivial, hs⟩)

theorem bind {x : Action σ α} {k : α → Action σ β} (hx : Preserves P x)
    (hk : ∀ a, Preserves P (k a)) : Preserves P (x >>= k) :=
  preserves_iff.mpr ((preserves_iff.mp hx).bind fun a => preserves_iff.mp (hk a))

theorem discard {x : Action σ α} (hx : Preserves P x) : Preserves P (discard x) :=
  hx.bind fun _ => .pure PUnit.unit

/-- The state is looked at; what goes on from there may rely on the property. -/
theorem get {k : σ → Action σ β} (hk : ∀ s, P s → Preserves P (k s)) :
    Preserves P (get >>= k) :=
  fun s hs => hk s hs s hs

theorem modify {m : σ → σ} (hm : ∀ s, P s → P (m s)) :
    Preserves P (modify m : Action σ PUnit) := fun s hs => hm s hs

theorem onPart {Q : τ → Prop} {part : σ → τ} {withPart : σ → τ → σ} {x : Action τ α}
    (hx : Preserves Q x) (hpart : ∀ s, P s → Q (part s))
    (hwith : ∀ s t, P s → Q t → P (withPart s t)) :
    Preserves P (Action.onPart part withPart x) :=
  preserves_iff.mpr ((preserves_iff.mp hx).onPart hpart (fun s _ t hs ht => hwith s t hs ht)
    fun s _ t hs ht => ⟨trivial, hwith s t hs ht.2⟩)

theorem onFirst {P : σ → Prop} {Q : τ → Prop} {x : Action σ α} (hx : Preserves P x) :
    Preserves (fun s : σ × τ => P s.1 ∧ Q s.2) (Action.onFirst x) :=
  hx.onPart (fun _ hs => hs.1) fun _ _ hs ht => ⟨ht, hs.2⟩

/-- What a step on the first of two states keeps there. -/
theorem fst_onFirst {x : Action σ α} (hx : Preserves P x) :
    Preserves (fun s : σ × τ => P s.1) (Action.onFirst x) :=
  hx.onPart (fun _ hs => hs) fun _ _ _ ht => ht

/-- A step on the second of two states keeps all that is said of the first. -/
theorem fst_onSecond (x : Action τ α) : Preserves (fun s : σ × τ => P s.1) (Action.onSecond x) :=
  onPart (Q := fun _ => True) (fun _ _ => trivial) (fun _ _ => trivial) fun _ _ hs _ => hs

theorem forM {xs : List β} {f : β → Action σ PUnit} (hf : ∀ b ∈ xs, Preserves P (f b)) :
    Preserves P (xs.forM f) :=
  preserves_iff.mpr (.forM fun b hb => preserves_iff.mp (hf b hb))

/-- An action on each of some states keeps what it keeps of each one and of the shared state. -/
theorem onEach {G : ρ → σ → Prop} {T : τ → Prop} {rs : List ρ} {x : Action (σ × τ) α}
    (hx : ∀ r ∈ rs, Preserves (fun s => G r s.1 ∧ T s.2) x) :
    Preserves (fun s => List.Forall₂ G rs s.1 ∧ T s.2) (Action.onEach x) :=
  preserves_iff.mpr (.onEach fun r hr => preserves_iff.mp (hx r hr))

/-- What is read off each state, list by list. -/
theorem forall₂_iff_map_eq {r : σ → ρ} {rs : List ρ} {states : List σ} :
    List.Forall₂ (fun q s => r s = q) rs states ↔ states.map r = rs := by
  have hmap : List.Forall₂ Eq rs (states.map r) ↔ _ := List.forall₂_map_right_iff
  rw [List.forall₂_eq_eq_eq, eq_comm] at hmap
  rw [hmap]
  exact ⟨fun h => h.imp fun _ _ => Eq.symm, fun h => h.imp fun _ _ => Eq.symm⟩

theorem onEach_map {r : σ → ρ} {T : τ → Prop} {rs : List ρ} {x : Action (σ × τ) α}
    (hx : ∀ q ∈ rs, Preserves (fun s => r s.1 = q ∧ T s.2) x) :
    Preserves (fun s => s.1.map r = rs ∧ T s.2) (Action.onEach x) := by
  have heach := onEach (G := fun q s => r s = q) hx
  simpa only [forall₂_iff_map_eq] using heach

end Preserves

end Action

end SqlWindow
