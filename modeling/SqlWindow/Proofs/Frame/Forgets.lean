import SqlWindow.Proofs.Frame.Agree
import SqlWindow.Proofs.Group.Built

set_option autoImplicit false

/-! # What frames forget

A frame that has seen rows, or has failed on them, is a twin of the frame it was built as: once
it is prepared again, nothing is left of what came before. This holds of all frames over functions
that forget their values in a reset.
-/

namespace SqlWindow

variable {σ : Type}

/-! ## Tallies -/

namespace CallTally

/-- All functions forget all values in a reset. -/
def Forgets (t : CallTally σ) : Prop := ∀ s ∈ t.slots, s.accumulator.Forgets

/-- Prepared for a partition, whatever its length, the tally is what the other one is then. -/
def PreparesAs (fresh t : CallTally σ) : Prop :=
  ∀ size, Tally.setWindowSize size (Tally.clear t) = Tally.setWindowSize size (Tally.clear fresh)

variable {t fresh : CallTally σ}

theorem prepared_eq (t : CallTally σ) (size : Nat) :
    Tally.setWindowSize size (Tally.clear t) = t.map (Accumulator.prepared size) := by
  show CallTally.mk ((t.slots.map _).map _) = CallTally.mk (t.slots.map _)
  rw [List.map_map]
  rfl

theorem Forgets.map (h : t.Forgets) {f : Accumulator σ → Accumulator σ}
    (hf : ∀ a : Accumulator σ, a.Forgets → (f a).Forgets) : (t.map f).Forgets := by
  intro s' hs'
  obtain ⟨s, hs, rfl⟩ := List.mem_map.mp hs'
  exact hf s.accumulator (h s hs)

/-- What is read off the functions behind a reset, rows cannot change. -/
theorem Forgets.keepsRows (h : fresh.Forgets) {r : Accumulator σ → Accumulator σ}
    (hr : ∀ a b : Accumulator σ, a.reset = b.reset → r a = r b)
    (hforgets : ∀ a : Accumulator σ, (r a).Forgets ↔ a.Forgets) :
    Tally.KeepsRows fun t : CallTally σ => t.map r = fresh.map r := by
  refine CallTally.keepsRows ?_
  intro s₀ hs₀
  have hs₀ : s₀.accumulator.Forgets := h.map (fun a => (hforgets a).mpr) s₀ hs₀
  have hof (a : Accumulator σ) (ha : r a = s₀.accumulator) : a.Forgets :=
    (hforgets a).mp (ha ▸ hs₀)
  constructor
  · intro a ha v
    rw [← ha]
    exact hr _ _ (Accumulator.reset_accumulate (hof a ha) v)
  · intro a ha v
    rw [← ha]
    exact hr _ _ (Accumulator.reset_retract (hof a ha) v)
  · intro a ha
    rw [← ha]
    exact hr _ _ (Accumulator.reset_reset (hof a ha))

theorem Forgets.keepsRows_clear (h : fresh.Forgets) :
    Tally.KeepsRows fun t : CallTally σ => Tally.clear t = Tally.clear fresh :=
  h.keepsRows (fun _ _ hab => hab) fun _ => Accumulator.forgets_reset

/-- No step shows behind the next preparation. -/
theorem Forgets.keeps_preparesAs (h : fresh.Forgets) : Tally.Keeps fresh.PreparesAs := by
  have hrows (size : Nat) : Tally.KeepsRows fun t : CallTally σ =>
      t.map (Accumulator.prepared size) = fresh.map (Accumulator.prepared size) :=
    h.keepsRows (fun _ _ hab => congrArg (Accumulator.setWindowSize size) hab) fun _ =>
      Accumulator.forgets_prepared size
  simp only [← prepared_eq] at hrows
  constructor
  · constructor
    · exact fun row t ht size => (hrows size).add row t (ht size)
    · exact fun row t ht size => (hrows size).remove row t (ht size)
    · exact fun t ht size => (hrows size).clear t (ht size)
  · intro size' t ht size
    have hsize := ht size
    rw [prepared_eq, prepared_eq] at hsize ⊢
    refine map_map_eq (fun s₀ hs₀ a ha => ?_) hsize
    have hs₀ : s₀.accumulator.Forgets :=
      h.map (fun a => (Accumulator.forgets_prepared size).mpr) s₀ hs₀
    have ha' : a.Forgets := (Accumulator.forgets_prepared size).mp (ha ▸ hs₀)
    rw [Accumulator.prepared_setWindowSize ha' size size', ha]

end CallTally

/-! ## Frames -/

namespace Frame

variable {f₀ f : Frame σ} {s₀ : RowStore}

/-- The tally is, once the frame is prepared, what the one of `f₀` is then. -/
def AtRest (f₀ : Frame σ) (t : CallTally σ) : Prop :=
  if f₀.isOtherRow then Tally.clear t = Tally.clear f₀.tally else f₀.tally.PreparesAs t

/-- Twins are frames of one kind between the same bounds, whose tallies are alike at rest. -/
theorem twin_iff : f₀.Twin f ↔ Carries f₀.AtRest f₀ f := by
  constructor
  · intro h
    cases f₀ <;> cases f <;>
      simp only [Twin, prepared, reduceCtorEq, forall_const, whole.injEq, forward.injEq,
        rowDistance.injEq, keyDistance.injEq, otherRow.injEq, Forward.prepare,
        RowDistance.prepare, KeyDistance.prepare, OtherRow.prepare, Held.prepare,
        WholePartition.mk.injEq, Forward.mk.injEq, RowDistance.mk.injEq, KeyDistance.mk.injEq,
        OtherRow.mk.injEq, Held.mk.injEq, and_true] at h
    case whole => exact .whole fun size => (h size).symm
    case forward => exact .forward ⟨fun size => (h size).1.symm, (h 0).2.symm⟩
    case rowDistance =>
      exact .rowDistance ⟨fun size => (h size).1.symm, (h 0).2.1.symm, (h 0).2.2.symm⟩
    case keyDistance =>
      exact .keyDistance ⟨fun size => (h size).1.symm, (h 0).2.1.symm, (h 0).2.2.symm⟩
    case otherRow => exact .otherRow ⟨h.1.symm, h.2.1.symm, h.2.2.symm⟩
  · intro h length
    cases h with
    | whole h => exact congrArg (fun t => whole { tally := t }) (h length).symm
    | @forward f₀ f h =>
      show forward ⟨_, f₀.currentRowOnly⟩ = forward ⟨_, f.currentRowOnly⟩
      rw [h.2, h.1 length]
      rfl
    | @rowDistance f₀ f h =>
      show rowDistance ⟨{ tally := _ }, _, _, _⟩ = rowDistance ⟨{ tally := _ }, f.lower, f.upper, _⟩
      rw [h.1 length, h.2.1, h.2.2]
      rfl
    | @keyDistance f₀ f h =>
      show _ = keyDistance ⟨{ tally := _ }, f.lower, f.upper, _, _, _⟩
      rw [h.1 length, h.2.1, h.2.2]
      rfl
    | @otherRow f₀ f h =>
      show _ = otherRow ⟨_, f.direction, f.offset, _⟩
      rw [show Tally.clear f.tally = _ from h.1, h.2.1, h.2.2]
      rfl

theorem twin_eq (f₀ : Frame σ) : f₀.Twin = Carries f₀.AtRest f₀ :=
  funext fun _ => propext twin_iff

theorem keepsRows_atRest (h : f₀.tally.Forgets) : Tally.KeepsRows f₀.AtRest := by
  unfold AtRest
  cases f₀.isOtherRow with
  | true => exact h.keepsRows_clear
  | false => exact h.keeps_preparesAs.toKeepsRows

/-- **A frame remains a twin of the one it was built as**, whether preparing it succeeds or
not. -/
theorem preserves_twin_prepare (h : f₀.tally.Forgets) :
    Action.Preserves (Beside f₀.Twin s₀) prepare := by
  have hsize (hother : f₀.isOtherRow = false) (size : Nat) (t : CallTally σ) (ht : f₀.AtRest t) :
      f₀.AtRest (Tally.setWindowSize size t) := by
    unfold AtRest at ht ⊢
    rw [hother] at ht ⊢
    exact h.keeps_preparesAs.setWindowSize size t ht
  have hcarries : Action.Preserves (Beside (Carries f₀.AtRest f₀) s₀) prepare :=
    preserves_prepare (keepsRows_atRest h) hsize
  rwa [← twin_eq] at hcarries

/-- **A frame remains a twin of the one it was built as**, whether answering a row succeeds or
not. -/
theorem preserves_twin_process (h : f₀.tally.Forgets) (index : Nat) (current : Row) :
    Action.Preserves (Beside f₀.Twin s₀) (process index current) := by
  have hcarries : Action.Preserves (Beside (Carries f₀.AtRest f₀) s₀) (process index current) :=
    preserves_process (keepsRows_atRest h) index current
  rwa [← twin_eq] at hcarries

end Frame

/-! ## Registries -/

section

variable {registry : Registry σ}

theorem Registry.forgets_builtin : (Registry.builtin : Registry σ).Forgets := by
  intro p hp
  rcases mem_foldl_insert hp with hp | ⟨hmem, -⟩
  · cases hp
  · exact (Accumulator.isNew_of_mem_builtins hmem).1.forgets

theorem Slot.forgets_of_ofCall (h : registry.Forgets) {c : Call} {s : Slot σ}
    (hc : ofCall registry c = .ok s) : s.accumulator.Forgets :=
  of_ofCall h (fun _ => Accumulator.Forgets.configure) hc

theorem CallTally.forgets_of_ofCalls (h : registry.Forgets) {calls : List Call} {t : CallTally σ}
    (ht : ofCalls calls registry = .ok t) : t.Forgets := by
  intro s hs
  obtain ⟨c, -, hc⟩ := exists_call_of_mem ht hs
  exact Slot.forgets_of_ofCall h hc

/-- **All frames of a group** forget what they have seen. -/
theorem Frame.forgets_of_ofGroup (h : registry.Forgets) {g : WindowGroup} {fs : List (Frame σ)}
    (hfs : ofGroup g registry = .ok fs) : ∀ f ∈ fs, f.tally.Forgets := by
  intro f hf s hs
  obtain ⟨c, -, hc⟩ := (WindowGroup.isBuilt_of_ofGroup hfs).exists_call hf hs
  exact Slot.forgets_of_ofCall h hc

/-- **All frames of a specification.** -/
theorem WindowSpec.forgets_of_ofGroup (h : registry.Forgets) {groups : List WindowGroup}
    {frames : List (List (Frame σ))}
    (hframes : groups.mapM (Frame.ofGroup · registry) = .ok frames) :
    ∀ f ∈ frames.flatten, f.tally.Forgets := by
  intro f hf
  obtain ⟨fs, hfs, hf⟩ := List.mem_flatten.mp hf
  obtain ⟨g, -, hg⟩ := Answer.exists_of_mem_mapM hframes hfs
  exact Frame.forgets_of_ofGroup h hg f hf

end

end SqlWindow
