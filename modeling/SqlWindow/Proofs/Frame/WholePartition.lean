import SqlWindow.Frame.WholePartition
import SqlWindow.Proofs.Frame.Held

set_option autoImplicit false

/-! # Taking in the whole partition

Preparing a frame over the whole partition takes in its rows one after the other, so that the
values it repeats for every row are those of a tally that holds them all.
-/

namespace SqlWindow

namespace WholePartition

variable {η : Type} [Tally η] {rows : List Row} {canRemove : Prop} {H : Nat → Nat → η → Prop}

/-- Taking in `count` rows from position `i` on. -/
theorem exists_takeRows (hH : Tally.Follows rows canRemove H) (count : Nat) {i : Nat} {t : η}
    (ht : H 0 i t) (hi : i + count ≤ rows.length) :
    ∃ u, H 0 (i + count) u ∧ ∀ values : Row,
      Reads rows ((List.range' i count).forM takeRow) ⟨t, values⟩ () ⟨u, values⟩ := by
  induction count generalizing i t with
  | zero => exact ⟨t, ht, fun values => .pure () _⟩
  | succ count ih =>
    have hrow : rows[i]? = some rows[i] := List.getElem?_eq_getElem (by omega)
    obtain ⟨u, hadd, hu⟩ := hH.add ht (Nat.zero_le i) hrow
    obtain ⟨w, hw, hrest⟩ := ih hu (by omega)
    refine ⟨w, by rwa [Nat.add_right_comm] at hw, fun values => ?_⟩
    have htake : Reads rows (takeRow i) (⟨t, values⟩ : WholePartition η) () ⟨u, values⟩ :=
      .bind (.row hrow) (.onFirst (Action.onPart_of_ok hadd))
    exact htake.bind (hrest values)

/-- **All rows.** Beside every store of the partition the frame is prepared to repeat the values
of a tally that holds all rows. Nothing of the frame as it was counts but what a cleared tally
keeps. -/
theorem exists_prepare (hH : Tally.Follows rows canRemove H) {t : η} (ht : H 0 0 t) :
    ∃ u, H 0 rows.length u ∧ ∀ f : WholePartition η,
      Tally.setWindowSize rows.length (Tally.clear f.tally) = t →
        Reads rows prepare f () ⟨u, Tally.values u⟩ := by
  obtain ⟨u, hu, hreads⟩ := exists_takeRows hH rows.length ht (by omega)
  rw [Nat.zero_add] at hu
  refine ⟨u, hu, fun f hf => .get fun s hs => ?_⟩
  show Reads rows (do
    modify _
    (List.range s.length).forM takeRow
    modify _) f () _
  rw [hs.length_eq, List.range_eq_range']
  exact .bind (.modify fun _ => by simp only [hf]) (.bind (hreads f.values) (.modify fun _ => rfl))

end WholePartition

end SqlWindow
