import SqlWindow.Proofs.Frame.Answers
import SqlWindow.Proofs.Frame.Obeys

set_option autoImplicit false

/-! # What frames keep

Whatever rows a frame is shown and whether it fails on them or not, it remains the one it was
built as, and the store beside it remains sound. This is what a later partition, or a later run
of an operator, can rely on.
-/

namespace SqlWindow

/-! ## Stores -/

namespace RowStore

/-- The store is sound, and it is set up as `s₀`. -/
def Sound (s₀ s : RowStore) : Prop := (∃ rows, s.Holds rows) ∧ s₀.SameSetup s

variable {s₀ : RowStore}

/-- A sound store remains sound when it is read, also where it has no row. -/
theorem preserves_row (index : Nat) : Action.Preserves s₀.Sound (row index) := by
  refine Action.preserves_iff.mpr ?_
  rintro s ⟨⟨rows, hs⟩, hsetup⟩
  exact (meets_row (fun _ _ => trivial) index s ⟨hs, hsetup⟩).imp
    (fun _ _ ht => ⟨⟨rows, ht.2.1⟩, ht.2.2⟩) fun _ _ ht => ⟨trivial, ⟨rows, ht.2.1⟩, ht.2.2⟩

theorem preserves_append (row : Row) : Action.Preserves s₀.Sound (append row) := by
  refine Action.preserves_iff.mpr ?_
  rintro s ⟨⟨rows, hs⟩, hsetup⟩
  exact (meets_append (fun _ _ => trivial) row s ⟨hs, hsetup⟩).imp
    (fun _ _ ht => ⟨⟨_, ht.1⟩, ht.2⟩) fun _ _ ht => ⟨trivial, ⟨rows, ht.2.1⟩, ht.2.2⟩

end RowStore

/-! ## Tallies -/

/-- A property of tallies that no row changes, whether it comes in or goes out. -/
structure Tally.KeepsRows {η : Type} [Tally η] (P : η → Prop) : Prop where
  add : ∀ row, Action.Preserves P (Tally.add row)
  remove : ∀ row, Action.Preserves P (Tally.remove row)
  clear : ∀ t, P t → P (Tally.clear t)

/-- No row makes it fail in a way that matters, whether it comes in or goes out. -/
theorem Tally.KeepsRows.obeys {η : Type} [Tally η] {P : η → Prop} (h : Tally.KeepsRows P) :
    Tally.Obeys True P fun _ => True where
  add row := Action.preserves_iff.mp (h.add row)
  remove _ row := Action.preserves_iff.mp (h.remove row)
  clear := h.clear

/-- A property of tallies that none of their steps changes. -/
structure Tally.Keeps {η : Type} [Tally η] (P : η → Prop) : Prop extends Tally.KeepsRows P where
  setWindowSize : ∀ size t, P t → P (Tally.setWindowSize size t)

/-- What every function keeps, the tally keeps. -/
theorem CallTally.keepsRows {σ : Type} {r : Accumulator σ → Accumulator σ} {base : CallTally σ}
    (h : ∀ s₀ ∈ base.slots, Accumulator.Keeps r s₀.accumulator) :
    Tally.KeepsRows fun t : CallTally σ => t.map r = base where
  add := preserves_add h
  remove := preserves_remove h
  clear _ ht := map_map_eq (fun s₀ hs₀ => (h s₀ hs₀).reset) ht

theorem CallTally.tallyKeeps_renew {σ : Type} {fresh : CallTally σ} (h : fresh.IsBuiltin) :
    Tally.Keeps fun t : CallTally σ => t.renew = fresh where
  toKeepsRows := keepsRows (keeps_renew h)
  setWindowSize size _ ht := (renew_setWindowSize (isBuiltin_of_renew_eq h ht) size).trans ht

/-! ## Beside a store -/

/-- The state has the property, and the store beside it is sound and set up as `s₀`. -/
def Beside {φ : Type} (G : φ → Prop) (s₀ : RowStore) (s : φ × RowStore) : Prop :=
  G s.1 ∧ s₀.Sound s.2

/-- What is met beside every store is kept. -/
theorem Beside.preserves {φ α : Type} {G : φ → Prop} {s₀ : RowStore}
    {x : Action (φ × RowStore) α}
    (hx : ∀ rows, Action.Maintains (fun _ => True) (Alongside rows s₀ G) x) :
    Action.Preserves (Beside G s₀) x := by
  rintro s ⟨hG, ⟨rows, hrows⟩, hsetup⟩
  obtain ⟨hG', hrows', hsetup'⟩ := Action.preserves_iff.mpr (hx rows) s ⟨hG, hrows, hsetup⟩
  exact ⟨hG', ⟨rows, hrows'⟩, hsetup'⟩

theorem Forward.preserves_process {η : Type} [Tally η] {P : η → Prop} (hP : Tally.KeepsRows P)
    (only : Bool) (row : Row) :
    Action.Preserves (fun f : Forward η => P f.tally ∧ f.currentRowOnly = only) (process row) :=
  Action.preserves_iff.mpr ((meets_process hP.obeys only row).imp (fun _ hf => hf)
    (fun _ _ hf => hf.2) fun _ _ hf => hf)

/-! ## Frames -/

namespace Frame

variable {σ : Type} {f₀ : Frame σ} {s₀ : RowStore}

variable {P : CallTally σ → Prop}

/-- Preparing a frame, whether it succeeds or not, changes nothing that is kept of its tally. -/
theorem preserves_prepare (hP : Tally.KeepsRows P)
    (hsize : f₀.isOtherRow = false → ∀ size t, P t → P (Tally.setWindowSize size t)) :
    Action.Preserves (Beside (Carries P f₀) s₀) prepare := by
  have hstart (rows : List Row) (t : CallTally σ) (ht : P t) :
      P (if f₀.isOtherRow then Tally.clear t
        else Tally.setWindowSize rows.length (Tally.clear t)) := by
    cases hother : f₀.isOtherRow with
    | true => exact hP.clear t ht
    | false => exact hsize hother _ _ (hP.clear t ht)
  exact Beside.preserves fun rows => (meets_prepare (A := fun _ => True) (fun _ _ => trivial)
    hP.obeys (hstart rows) (fun _ ht => ht) fun _ _ => trivial).imp (fun _ hs => hs)
    (fun _ _ hs => ⟨hs.1.1, hs.2⟩) fun _ _ hs => hs

/-- Answering a row, whether it succeeds or not, changes nothing that is kept of the tally. -/
theorem preserves_process (hP : Tally.KeepsRows P) (index : Nat) (current : Row) :
    Action.Preserves (Beside (Carries P f₀) s₀) (process index current) := by
  -- where rows can go out and values are any, frames are ready at once
  have hprepared (f : Frame σ) : f.IsPrepared True fun _ => True := by
    cases f <;> first | trivial | exact .inr trivial
  exact Beside.preserves fun rows => (meets_process (fun _ _ => trivial) hP.obeys
    (fun _ => trivial) (fun _ _ => trivial) index current).imp
    (fun _ hs => ⟨⟨hs.1, hprepared _⟩, hs.2⟩) (fun _ _ hs => ⟨hs.2.1.1, hs.2.2⟩)
    fun _ _ hs => ⟨hs.1, hs.2.1.1, hs.2.2⟩

/-! ### As it was built -/

/-- The frame is the one that was built as `f₀`. -/
def Kept (f₀ f : Frame σ) : Prop := f.renew = f₀

/-- Two frames were built alike when they are of one kind between the same bounds, and their
tallies were built alike. -/
theorem renew_eq_renew_iff {f g : Frame σ} :
    g.renew = f.renew ↔ Carries (fun t => t.renew = f.tally.renew) f g := by
  constructor
  · intro h
    cases f <;> cases g <;>
      simp only [renew, reduceCtorEq, whole.injEq, forward.injEq, rowDistance.injEq,
        keyDistance.injEq, otherRow.injEq, WholePartition.mk.injEq, Forward.mk.injEq,
        RowDistance.mk.injEq, KeyDistance.mk.injEq, OtherRow.mk.injEq, Held.mk.injEq, and_true] at h
    case whole => exact .whole h
    case forward => exact .forward h
    case rowDistance => exact .rowDistance h
    case keyDistance => exact .keyDistance h
    case otherRow => exact .otherRow h
  · intro h
    cases h with
    | whole h => exact congrArg (fun t => whole { tally := t }) h
    | @forward f g h =>
      show forward ⟨g.tally.renew, g.currentRowOnly⟩ = _
      rw [h.1, h.2]
      rfl
    | @rowDistance f g h =>
      show rowDistance ⟨{ tally := g.held.tally.renew }, g.lower, g.upper, 0⟩ = _
      rw [h.1, h.2.1, h.2.2]
      rfl
    | @keyDistance f g h =>
      show keyDistance ⟨{ tally := g.held.tally.renew }, g.lower, g.upper, 0, 0, 0⟩ = _
      rw [h.1, h.2.1, h.2.2]
      rfl
    | @otherRow f g h =>
      show otherRow ⟨g.tally.renew, g.direction, g.offset, 0⟩ = _
      rw [h.1, h.2.1, h.2.2]
      rfl

theorem tally_renew (f : Frame σ) : f.renew.tally = f.tally.renew := by
  cases f <;> rfl

/-- What is kept of the tally is kept of the frame. -/
theorem preserves_kept {α : Type} {x : Action (Frame σ × RowStore) α}
    (hx : ∀ f : Frame σ,
      Action.Preserves (Beside (Carries (fun t => t.renew = f₀.tally) f) s₀) x) :
    Action.Preserves (Beside (Kept f₀) s₀) x := by
  rintro ⟨f, s⟩ ⟨rfl, hs⟩
  have hcarries := hx f (f, s)
  rw [tally_renew] at hcarries
  have hkept := hcarries ⟨renew_eq_renew_iff.mp rfl, hs⟩
  exact ⟨renew_eq_renew_iff.mpr hkept.1, hkept.2⟩

/-- **A frame remains the one it was built as**, whether preparing it succeeds or not. -/
theorem preserves_kept_prepare (h : f₀.tally.IsBuiltin) :
    Action.Preserves (Beside (Kept f₀) s₀) prepare := by
  have hkeeps := CallTally.tallyKeeps_renew h
  exact preserves_kept fun _ => preserves_prepare hkeeps.toKeepsRows fun _ => hkeeps.setWindowSize

/-- **A frame remains the one it was built as**, whether answering a row succeeds or not. -/
theorem preserves_kept_process (h : f₀.tally.IsBuiltin) (index : Nat) (current : Row) :
    Action.Preserves (Beside (Kept f₀) s₀) (process index current) := by
  have hkeeps := CallTally.tallyKeeps_renew h
  exact preserves_kept fun _ => preserves_process hkeeps.toKeepsRows index current

end Frame

end SqlWindow
