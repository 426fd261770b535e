import SqlWindow.Proofs.Agree
import SqlWindow.Proofs.Frame.Renew

set_option autoImplicit false

/-! # Frames beside stores with the same rows

What a frame answers, and how it goes on, depends on the rows in the store beside it and on
nothing else there: not on the budget, not on which rows lie in a file, not on the pages that are
kept. This holds of errors as well as of answers.

A frame is prepared by forgetting what its tally holds, so for this step the two frames need not
be equal: `Frame.Twin` says that they are once they are prepared.
-/

namespace SqlWindow

/-! ## Stores -/

namespace RowStore

/-- Both stores hold these rows, each in its own setup. -/
def Mirror (s₀ t₀ : RowStore) (rows : List Row) (s t : RowStore) : Prop :=
  (s.Holds rows ∧ s₀.SameSetup s) ∧ t.Holds rows ∧ t₀.SameSetup t

variable {s₀ t₀ s t : RowStore} {rows : List Row}

theorem Mirror.length_eq (h : Mirror s₀ t₀ rows s t) : s.length = t.length := by
  rw [h.1.1.length_eq, h.2.1.length_eq]

theorem agree_row (index : Nat) :
    Action.Agree (Mirror s₀ t₀ rows) (Mirror s₀ t₀ rows) (Mirror s₀ t₀ rows) (row index)
      (row index) := by
  intro s t hst
  obtain ⟨⟨hs, hss⟩, ht, htt⟩ := hst
  cases hrow : rows[index]? with
  | some row =>
    obtain ⟨s', hs', hsrows, hssetup⟩ := hs.row hrow
    obtain ⟨t', ht', htrows, htsetup⟩ := ht.row hrow
    rw [hs', ht']
    exact .ok ⟨⟨hsrows, hss.trans hssetup⟩, htrows, htt.trans htsetup⟩
  | none =>
    have hindex : rows.length ≤ index := List.getElem?_eq_none_iff.mp hrow
    rw [hs.row_of_length_le hindex, ht.row_of_length_le hindex]
    exact .error ⟨⟨hs, hss⟩, ht, htt⟩

/-- A row that fits goes into both stores, where files can be created. -/
theorem agree_append {E : RowStore → RowStore → Prop} {row : Row} (hs₀ : s₀.canSpill = true)
    (ht₀ : t₀.canSpill = true) (hfits : SpillFile.Fits row) :
    Action.Agree (Mirror s₀ t₀ rows) (Mirror s₀ t₀ (rows ++ [row])) E (append row)
      (append row) := by
  intro s t hst
  obtain ⟨⟨hs, hss⟩, ht, htt⟩ := hst
  obtain ⟨s', hs'⟩ := append_succeeds s (hss.2.trans hs₀) hfits
  obtain ⟨t', ht'⟩ := append_succeeds t (htt.2.trans ht₀) hfits
  have hsappended := hs.append row
  have htappended := ht.append row
  rw [hs'] at hsappended ⊢
  rw [ht'] at htappended ⊢
  exact .ok ⟨⟨hsappended.1, hss.trans hsappended.2⟩, htappended.1, htt.trans htappended.2⟩

end RowStore

/-! ## One state beside two stores -/

/-- One state, beside two stores of the same rows. -/
def SameBeside {φ : Type} (s₀ t₀ : RowStore) (rows : List Row) :
    φ × RowStore → φ × RowStore → Prop :=
  Action.Abreast Eq (RowStore.Mirror s₀ t₀ rows)

/-- Whatever state there is, the action answers the same and goes on to the same state beside all
stores of the same rows. -/
def SeesRows {φ α : Type} (s₀ t₀ : RowStore) (rows : List Row) (x : Action (φ × RowStore) α) :
    Prop :=
  Action.Agree (SameBeside s₀ t₀ rows) (SameBeside s₀ t₀ rows) (SameBeside s₀ t₀ rows) x x

namespace SeesRows

variable {φ ψ α β : Type} {s₀ t₀ : RowStore} {rows : List Row}

theorem bind {x : Action (φ × RowStore) α} {k : α → Action (φ × RowStore) β}
    (hx : SeesRows s₀ t₀ rows x) (hk : ∀ a, SeesRows s₀ t₀ rows (k a)) :
    SeesRows s₀ t₀ rows (x >>= k) :=
  Action.Agree.bind hx hk

theorem pure (a : α) : SeesRows s₀ t₀ rows (Pure.pure a : Action (φ × RowStore) α) :=
  Action.Agree.pure a

theorem ofExcept (a : Except Error α) :
    SeesRows s₀ t₀ rows (Action.ofExcept a : Action (φ × RowStore) α) :=
  Action.Agree.ofExcept a

/-- The state is looked at, the store is not. -/
theorem get {k : φ × RowStore → Action (φ × RowStore) β}
    (hk : ∀ f s, SeesRows s₀ t₀ rows (k (f, s))) (hstore : ∀ f s t, k (f, s) = k (f, t)) :
    SeesRows s₀ t₀ rows (get >>= k) := by
  refine Action.Agree.get ?_
  rintro ⟨f, s⟩ ⟨_, t⟩ ⟨rfl, -⟩
  rw [hstore f t s]
  exact hk f s

theorem modify {m : φ × RowStore → φ × RowStore}
    (hm : ∀ f s t, (m (f, s)).1 = (m (f, t)).1 ∧ (m (f, s)).2 = s) :
    SeesRows s₀ t₀ rows (modify m) := by
  refine Action.Agree.modify ?_
  rintro ⟨f, s⟩ ⟨_, t⟩ ⟨rfl, hst⟩
  refine ⟨(hm f s t).1, ?_⟩
  rw [(hm f s t).2, (hm f t s).2]
  exact hst

theorem row (index : Nat) :
    SeesRows s₀ t₀ rows (Action.onSecond (RowStore.row index) : Action (φ × RowStore) Row) :=
  Action.Agree.onSecond (RowStore.agree_row index)

/-- A step that does not look at the store. -/
theorem onFirst (x : Action φ α) : SeesRows s₀ t₀ rows (Action.onFirst x) :=
  Action.Agree.onFirst (.refl x)

/-- A step on a part of the state. -/
theorem onPart {p : φ → ψ} {w : φ → ψ → φ} {x : Action (ψ × RowStore) α}
    (hx : SeesRows s₀ t₀ rows x) :
    SeesRows s₀ t₀ rows
      (Action.onPart (fun s => (p s.1, s.2)) (fun s q => (w s.1 q.1, q.2)) x) := by
  have hwith (s t : φ × RowStore) (hst : SameBeside s₀ t₀ rows s t) (q r : ψ × RowStore)
      (hqr : SameBeside s₀ t₀ rows q r) :
      SameBeside s₀ t₀ rows (w s.1 q.1, q.2) (w t.1 r.1, r.2) := by
    refine ⟨?_, hqr.2⟩
    show w s.1 q.1 = w t.1 r.1
    rw [hst.1, hqr.1]
  exact Action.Agree.onPart hx (fun s t hst => ⟨congrArg p hst.1, hst.2⟩) hwith hwith

end SeesRows

/-! ## Frames of each kind -/

section

variable {η : Type} [Tally η] {s₀ t₀ : RowStore} {rows : List Row}

/-- Of a frame over the whole partition only the tally counts, and of this only what is left when
it is cleared. -/
theorem WholePartition.agree_prepare :
    Action.Agree
      (Action.Abreast (fun f g : WholePartition η => ∀ size,
        Tally.setWindowSize size (Tally.clear f.tally) =
          Tally.setWindowSize size (Tally.clear g.tally)) (RowStore.Mirror s₀ t₀ rows))
      (SameBeside s₀ t₀ rows)
      (Action.Abreast (fun f g => f.tally = g.tally) (RowStore.Mirror s₀ t₀ rows))
      prepare prepare := by
  have htakeRow (index : Nat) : Action.Agree
      (Action.Abreast (fun f g : WholePartition η => f.tally = g.tally)
        (RowStore.Mirror s₀ t₀ rows))
      (Action.Abreast (fun f g => f.tally = g.tally) (RowStore.Mirror s₀ t₀ rows))
      (Action.Abreast (fun f g => f.tally = g.tally) (RowStore.Mirror s₀ t₀ rows))
      (takeRow index) (takeRow index) := by
    refine .bind (.onSecond (RowStore.agree_row index)) fun row => .onFirst ?_
    exact .onPart (.refl (Tally.add row)) (fun _ _ h => h) (fun _ _ _ _ _ h => h)
      fun _ _ _ _ _ h => h
  refine .get ?_
  intro s t hst
  rw [hst.2.length_eq]
  refine .bind (Q := Action.Abreast (fun f g => f.tally = g.tally) (RowStore.Mirror s₀ t₀ rows))
    (.modify fun f g hfg => ?_) fun _ => ?_
  · exact ⟨hfg.1 t.2.length, hfg.2⟩
  · refine .bind (.forM fun index _ => htakeRow index) fun _ => .modify ?_
    intro f g hfg
    refine ⟨?_, hfg.2⟩
    show WholePartition.mk f.1.tally _ = WholePartition.mk g.1.tally _
    rw [hfg.1]

end

section

variable {η : Type} {s₀ t₀ : RowStore} {rows : List Row}

namespace Held

theorem seesRows_dropRows [Tally η] (count : Nat) :
    SeesRows s₀ t₀ rows (dropRows count : Action (Held η × RowStore) Unit) := by
  induction count with
  | zero => exact .pure _
  | succ count ih =>
    have hdrop : SeesRows s₀ t₀ rows (dropRow : Action (Held η × RowStore) Unit) := by
      refine .get (fun h s => .bind (.row h.start) fun row => ?_) fun _ _ _ => rfl
      exact .bind (.onFirst _) fun _ => .modify fun _ _ _ => ⟨rfl, rfl⟩
    exact hdrop.bind fun _ => ih

theorem seesRows_takeRows [Tally η] (count : Nat) :
    SeesRows s₀ t₀ rows (takeRows count : Action (Held η × RowStore) Unit) := by
  induction count with
  | zero => exact .pure _
  | succ count ih =>
    have htake : SeesRows s₀ t₀ rows (takeRow : Action (Held η × RowStore) Unit) := by
      refine .get (fun h s => .bind (.row h.stop) fun row => ?_) fun _ _ _ => rfl
      exact .bind (.onFirst _) fun _ => .modify fun _ _ _ => ⟨rfl, rfl⟩
    exact htake.bind fun _ => ih

theorem seesRows_slide [Tally η] (lo hi : Nat) :
    SeesRows s₀ t₀ rows (slide lo hi : Action (Held η × RowStore) Unit) := by
  have htake : SeesRows s₀ t₀ rows
      (get >>= fun s => takeRows (hi - s.1.stop) : Action (Held η × RowStore) Unit) :=
    .get (fun h _ => seesRows_takeRows (hi - h.stop)) fun _ _ _ => rfl
  refine .get (fun h s => ?_) fun _ _ _ => rfl
  by_cases hle : h.stop ≤ lo
  · simp only [if_pos hle]
    exact .bind (.modify fun _ _ _ => ⟨rfl, rfl⟩) fun _ => htake
  · simp only [if_neg hle]
    exact .bind (seesRows_dropRows (lo - h.start)) fun _ => htake

end Held

theorem RowDistance.seesRows_process [Tally η] (index : Nat) :
    SeesRows s₀ t₀ rows (process index : Action (RowDistance η × RowStore) Row) := by
  have hslide (lo hi : Nat) :
      SeesRows s₀ t₀ rows (onHeld (Held.slide lo hi) : Action (RowDistance η × RowStore) Unit) :=
    .onPart (p := held) (w := fun f h => { f with held := h }) (Held.seesRows_slide lo hi)
  refine .get (fun f s => .bind (hslide _ _) fun _ => ?_) fun _ _ _ => rfl
  exact .get (fun _ _ => .pure _) fun _ _ _ => rfl

namespace KeyDistance

theorem seesRows_seekLower (current : Row) (steps : Nat) :
    SeesRows s₀ t₀ rows (seekLower current steps : Action (KeyDistance η × RowStore) Unit) := by
  induction steps with
  | zero => exact .pure _
  | succ steps ih =>
    refine .get (fun f s => ?_) fun _ _ _ => rfl
    refine .bind (.row f.lo) fun candidate => .bind (.ofExcept _) ?_
    intro admitted
    cases admitted with
    | true => exact .pure _
    | false => exact .bind (.modify fun _ _ _ => ⟨rfl, rfl⟩) fun _ => ih

theorem seesRows_seekUpper (current : Row) (steps : Nat) :
    SeesRows s₀ t₀ rows (seekUpper current steps : Action (KeyDistance η × RowStore) Unit) := by
  induction steps with
  | zero => exact .pure _
  | succ steps ih =>
    refine .get (fun f s => ?_) fun _ _ _ => rfl
    refine .bind (.row f.hi) fun candidate => .bind (.ofExcept _) ?_
    intro admitted
    cases admitted with
    | true => exact .bind (.modify fun _ _ _ => ⟨rfl, rfl⟩) fun _ => ih
    | false => exact .pure _

theorem seesRows_process [Tally η] (current : Row) :
    SeesRows s₀ t₀ rows (process current : Action (KeyDistance η × RowStore) Row) := by
  have hslide (lo hi : Nat) :
      SeesRows s₀ t₀ rows (onHeld (Held.slide lo hi) : Action (KeyDistance η × RowStore) Unit) :=
    .onPart (p := held) (w := fun f h => { f with held := h }) (Held.seesRows_slide lo hi)
  refine .get (fun f s => ?_) fun _ _ _ => rfl
  refine .bind (seesRows_seekLower current _) ?_
  intro _
  refine .bind (seesRows_seekUpper current _) ?_
  intro _
  refine .get (fun g t => .bind (hslide _ _) fun _ => ?_) fun _ _ _ => rfl
  exact .get (fun _ _ => .pure _) fun _ _ _ => rfl

end KeyDistance

theorem OtherRow.seesRows_process {σ : Type} (index : Nat) (current : Row) :
    SeesRows s₀ t₀ rows (process index current : Action (OtherRow σ × RowStore) Row) := by
  have hvalues : SeesRows s₀ t₀ rows
      (get >>= fun s => pure (Tally.values s.1.tally) : Action (OtherRow σ × RowStore) Row) :=
    .get (fun _ _ => .pure _) fun _ _ _ => rfl
  refine .get (fun f s => .bind (.ofExcept _) fun target => ?_) fun _ _ _ => rfl
  cases target with
  | some target =>
    exact .bind (.row target) fun row => .bind (.onFirst _) fun _ => hvalues
  | none => exact .bind (.onFirst _) fun _ => hvalues

end

/-! ## Frames -/

namespace Frame

variable {σ : Type} {s₀ t₀ : RowStore} {rows : List Row}

/-- The frame at the start of a partition of some length. One over the whole partition has still
to take in the rows. -/
def prepared (length : Nat) : Frame σ → Frame σ
  | whole f => whole { tally := Tally.setWindowSize length (Tally.clear f.tally) }
  | forward f => forward (f.prepare length)
  | rowDistance f => rowDistance (f.prepare length)
  | keyDistance f => keyDistance (f.prepare length)
  | otherRow f => otherRow (f.prepare length)

/-- Two frames that cannot be told apart once they are prepared for a partition. -/
def Twin (f g : Frame σ) : Prop := ∀ length, f.prepared length = g.prepared length

theorem Twin.refl (f : Frame σ) : f.Twin f := fun _ => rfl

theorem seesRows_within {φ α : Type} {wrap : φ → Frame σ} {x : Action (φ × RowStore) α}
    (hx : SeesRows s₀ t₀ rows x) (f : φ) : SeesRows s₀ t₀ rows (within f wrap x) := by
  have hwith (s t : Frame σ × RowStore) (_ : SameBeside s₀ t₀ rows s t) (p q : φ × RowStore)
      (hpq : SameBeside s₀ t₀ rows p q) : SameBeside s₀ t₀ rows (wrap p.1, p.2) (wrap q.1, q.2) :=
    ⟨congrArg wrap hpq.1, hpq.2⟩
  exact Action.Agree.onPart hx (fun _ _ hst => ⟨rfl, hst.2⟩) hwith hwith

/-- **Twins are prepared to one frame.** Where it fails they remain twins. -/
theorem agree_prepare :
    Action.Agree (Action.Abreast Twin (RowStore.Mirror s₀ t₀ rows)) (SameBeside s₀ t₀ rows)
      (Action.Abreast (Twin (σ := σ)) (RowStore.Mirror s₀ t₀ rows)) prepare prepare := by
  refine .get ?_
  rintro ⟨f, s⟩ ⟨g, t⟩ ⟨hfg, hst⟩
  have hlength := hst.length_eq
  have hprepared := hfg s.length
  -- what is set is the prepared frame, so only the kind whose preparation reads rows is left
  have hset : Action.Agree (Action.Abreast Twin (RowStore.Mirror s₀ t₀ rows))
      (SameBeside s₀ t₀ rows) (Action.Abreast (Twin (σ := σ)) (RowStore.Mirror s₀ t₀ rows))
      (set (f.prepared s.length, s)) (set (g.prepared t.length, t)) :=
    fun _ _ _ => .ok ⟨by rw [← hlength]; exact hprepared, hst⟩
  cases f with
  | whole f =>
    cases g with
    | whole g =>
      refine .onPart WholePartition.agree_prepare (fun s t h => ⟨fun size => ?_, h.2⟩)
        (fun _ _ _ p q hpq => ⟨congrArg whole hpq.1, hpq.2⟩)
        fun _ _ _ p q hpq => ⟨fun length => ?_, hpq.2⟩
      · have hsize := hfg size
        simp only [prepared, whole.injEq, WholePartition.mk.injEq] at hsize
        exact hsize.1
      · show whole _ = whole _
        rw [hpq.1]
    | _ => cases hprepared
  | forward f =>
    cases g with
    | forward g => exact hset
    | _ => cases hprepared
  | rowDistance f =>
    cases g with
    | rowDistance g => exact hset
    | _ => cases hprepared
  | keyDistance f =>
    cases g with
    | keyDistance g => exact hset
    | _ => cases hprepared
  | otherRow f =>
    cases g with
    | otherRow g => exact hset
    | _ => cases hprepared

/-- **One frame answers a row in one way**, whatever store of the same rows is beside it. -/
theorem seesRows_process (index : Nat) (current : Row) :
    SeesRows s₀ t₀ rows (process index current : Action (Frame σ × RowStore) Row) := by
  refine .get (fun f s => ?_) fun _ _ _ => rfl
  cases f with
  | whole f => exact .pure _
  | forward f => exact seesRows_within (.onFirst _) f
  | rowDistance f => exact seesRows_within (RowDistance.seesRows_process index) f
  | keyDistance f => exact seesRows_within (KeyDistance.seesRows_process current) f
  | otherRow f => exact seesRows_within (OtherRow.seesRows_process index current) f

end Frame

end SqlWindow
