import SqlWindow.Proofs.Agree
import SqlWindow.Proofs.Frame.Moves
import SqlWindow.Frame.KeyDistance
import SqlWindow.Frame.RowDistance
import SqlWindow.Proofs.Meets

set_option autoImplicit false

/-! # Recorded tallies

A frame works with any tally, so also with one that keeps a record of the calls made to it and
passes them on. A sliding frame over a recorded tally does what it does over the tally itself, so
the record tells what every tally receives.
-/

namespace SqlWindow

open SqlWindow.Action (Agree Ends)

/-! ## Recording -/

/-- A tally with a record of the calls made to it. -/
structure Recorded (η : Type) where
  tally : η
  calls : List TallyCall := []
  /-- A call has failed. -/
  failed : Bool := false

namespace Recorded

variable {η : Type}

/-- Makes a call and records it. -/
def record (call : TallyCall) (x : Action η Unit) : Action (Recorded η) Unit := fun r =>
  match x r.tally with
  | .ok () t => .ok () ⟨t, r.calls ++ [call], r.failed⟩
  | .error e t => .error e ⟨t, r.calls ++ [call], true⟩

instance [Tally η] : Tally (Recorded η) where
  add row := record (.add row) (Tally.add row)
  remove row := record (.remove row) (Tally.remove row)
  values r := Tally.values r.tally
  clear r := { r with tally := Tally.clear r.tally, calls := r.calls ++ [.clear] }
  setWindowSize n r :=
    { r with tally := Tally.setWindowSize n r.tally, calls := r.calls ++ [.setWindowSize n] }

end Recorded

/-! ## Recording changes nothing -/

/-- The second state is the first one without the record, beside the same store. -/
def Unrecorded {φ ψ : Type} (forget : φ → ψ) (s : φ × RowStore) (t : ψ × RowStore) : Prop :=
  t = (forget s.1, s.2)

/-- Without the record the action does the same. -/
def Ignores {φ ψ α : Type} (forget : φ → ψ) (x : Action (φ × RowStore) α)
    (y : Action (ψ × RowStore) α) : Prop :=
  Agree (Unrecorded forget) (Unrecorded forget) (Unrecorded forget) x y

namespace Ignores

variable {φ ψ α β : Type} {forget : φ → ψ}

theorem pure (a : α) : Ignores forget (Pure.pure a) (Pure.pure a) := Agree.pure a

theorem bind {x : Action (φ × RowStore) α} {y : Action (ψ × RowStore) α}
    {k : α → Action (φ × RowStore) β} {l : α → Action (ψ × RowStore) β} (h : Ignores forget x y)
    (hk : ∀ a, Ignores forget (k a) (l a)) : Ignores forget (x >>= k) (y >>= l) :=
  Agree.bind h hk

theorem ofExcept (a : Except Error α) :
    Ignores forget (Action.ofExcept a) (Action.ofExcept a) :=
  Agree.ofExcept a

theorem get {k : φ × RowStore → Action (φ × RowStore) β}
    {l : ψ × RowStore → Action (ψ × RowStore) β}
    (h : ∀ f s, Ignores forget (k (f, s)) (l (forget f, s))) :
    Ignores forget (get >>= k) (get >>= l) := by
  refine Agree.get ?_
  rintro ⟨f, s⟩ _ rfl
  exact h f s

theorem modify {m : φ × RowStore → φ × RowStore} {n : ψ × RowStore → ψ × RowStore}
    (h : ∀ f s, n (forget f, s) = (forget (m (f, s)).1, (m (f, s)).2)) :
    Ignores forget (modify m) (modify n) := by
  refine Agree.modify ?_
  rintro ⟨f, s⟩ _ rfl
  exact h f s

theorem row (index : Nat) : Ignores forget (Action.onSecond (RowStore.row index))
    (Action.onSecond (RowStore.row index)) := by
  rintro ⟨f, s⟩ _ rfl
  simp only [Action.onSecond, Action.onPart]
  cases RowStore.row index s with
  | ok row t => exact .ok rfl
  | error e t => exact .error rfl

/-- What is known of the result with the record, and that the result without it is the same. -/
theorem ends {x : Action (φ × RowStore) α} {y : Action (ψ × RowStore) α}
    (h : Ignores forget x y) {Q : α → φ × RowStore → Prop} {E : Error → φ × RowStore → Prop}
    {s : φ × RowStore} (hx : Ends Q E (x s)) :
    Ends (fun a t => Q a t ∧ y (forget s.1, s.2) = .ok a (forget t.1, t.2))
      (fun e t => E e t ∧ y (forget s.1, s.2) = .error e (forget t.1, t.2)) (x s) := by
  have halike := h s (forget s.1, s.2) rfl
  generalize y (forget s.1, s.2) = q at halike ⊢
  generalize x s = r at halike hx ⊢
  cases halike with
  | ok ht =>
    cases ht
    exact .ok ⟨Action.ends_ok_iff.mp hx, rfl⟩
  | error ht =>
    cases ht
    exact .error ⟨Action.ends_error_iff.mp hx, rfl⟩

end Ignores

variable {η : Type}

/-- The run of rows without the record of its tally. -/
def Held.forget (h : Held (Recorded η)) : Held η := ⟨h.tally.tally, h.start, h.stop⟩

/-- The frame without the record of its tally. -/
def RowDistance.forget (f : RowDistance (Recorded η)) : RowDistance η :=
  ⟨f.held.forget, f.lower, f.upper, f.length⟩

/-- The frame without the record of its tally. -/
def KeyDistance.forget (f : KeyDistance (Recorded η)) : KeyDistance η :=
  ⟨f.held.forget, f.lower, f.upper, f.length, f.lo, f.hi⟩

namespace Held

theorem ignores_onTally (call : TallyCall) (x : Action η Unit) :
    Ignores forget (onTally (Recorded.record call x)) (onTally x) := by
  rintro ⟨h, s⟩ _ rfl
  simp only [onTally, Action.onFirst, Action.onPart, Recorded.record, forget]
  cases x h.tally.tally with
  | ok u t => exact .ok rfl
  | error e t => exact .error rfl

variable [Tally η]

theorem ignores_dropRows (count : Nat) :
    Ignores (@forget η) (dropRows count) (dropRows count) := by
  induction count with
  | zero => exact .pure _
  | succ count ih =>
    refine .bind (.get fun h s => ?_) fun _ => ih
    exact .bind (.row h.start) fun row => .bind (ignores_onTally _ _) fun _ =>
      .modify fun _ _ => rfl

theorem ignores_takeRows (count : Nat) :
    Ignores (@forget η) (takeRows count) (takeRows count) := by
  induction count with
  | zero => exact .pure _
  | succ count ih =>
    refine .bind (.get fun h s => ?_) fun _ => ih
    exact .bind (.row h.stop) fun row => .bind (ignores_onTally _ _) fun _ =>
      .modify fun _ _ => rfl

theorem forget_restart (h : Held (Recorded η)) (lo : Nat) :
    (h.restart lo).forget = h.forget.restart lo := by
  unfold restart forget
  by_cases hlt : h.start < h.stop
  · simp only [if_pos hlt]
    rfl
  · simp only [if_neg hlt]

theorem ignores_slide (lo hi : Nat) : Ignores (@forget η) (slide lo hi) (slide lo hi) := by
  have htake : Ignores (@forget η) (get >>= fun s => takeRows (hi - s.1.stop))
      (get >>= fun s => takeRows (hi - s.1.stop)) :=
    .get fun h _ => ignores_takeRows (hi - h.stop)
  refine .get fun h s => ?_
  have hstop : h.forget.stop = h.stop := rfl
  dsimp only
  rw [hstop]
  by_cases hle : h.stop ≤ lo
  · simp only [if_pos hle]
    exact .bind (.modify fun h s => Prod.ext (forget_restart h lo).symm rfl) fun _ => htake
  · simp only [if_neg hle]
    exact .bind (ignores_dropRows (lo - h.start)) fun _ => htake

end Held

variable [Tally η]

theorem RowDistance.ignores_process (index : Nat) :
    Ignores (@forget η) (process index) (process index) := by
  refine .get fun f s => .bind ?_ fun _ => .get fun f s => .pure _
  exact (Held.ignores_slide _ _).onPart (fun _ _ hst => by cases hst; rfl)
    (fun _ _ hst _ _ hpq => by cases hst; cases hpq; rfl)
    fun _ _ hst _ _ hpq => by cases hst; cases hpq; rfl

namespace KeyDistance

omit [Tally η] in
theorem ignores_seekLower (current : Row) (steps : Nat) :
    Ignores (@forget η) (seekLower current steps) (seekLower current steps) := by
  induction steps with
  | zero => exact .pure _
  | succ steps ih =>
    refine .get fun f s => .bind (.row f.lo) fun candidate => .bind (.ofExcept _) fun admitted => ?_
    cases admitted with
    | true => exact .pure _
    | false => exact .bind (.modify fun _ _ => rfl) fun _ => ih

omit [Tally η] in
theorem ignores_seekUpper (current : Row) (steps : Nat) :
    Ignores (@forget η) (seekUpper current steps) (seekUpper current steps) := by
  induction steps with
  | zero => exact .pure _
  | succ steps ih =>
    refine .get fun f s => .bind (.row f.hi) fun candidate => .bind (.ofExcept _) fun admitted => ?_
    cases admitted with
    | true => exact .bind (.modify fun _ _ => rfl) fun _ => ih
    | false => exact .pure _

theorem ignores_process (current : Row) :
    Ignores (@forget η) (process current) (process current) := by
  refine .get fun f s => .bind (ignores_seekLower current _) fun _ =>
    .bind (ignores_seekUpper current _) fun _ => .get fun f s => .bind ?_ fun _ =>
      .get fun f s => .pure _
  exact (Held.ignores_slide _ _).onPart (fun _ _ hst => by cases hst; rfl)
    (fun _ _ hst _ _ hpq => by cases hst; cases hpq; rfl)
    fun _ _ hst _ _ hpq => by cases hst; cases hpq; rfl

end KeyDistance

end SqlWindow
