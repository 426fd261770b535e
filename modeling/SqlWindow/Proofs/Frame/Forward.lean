import SqlWindow.Frame.Forward
import SqlWindow.Proofs.Frame.Held

set_option autoImplicit false

/-! # Frames that look at no later row

After each row such a frame holds the rows from the start of the partition up to the current
one, or the current one alone.
-/

namespace SqlWindow

namespace Forward

variable {η : Type} {rows : List Row} {canRemove : Prop} {H : Nat → Nat → η → Prop}
variable {f : Forward η} {i : Nat} {row : Row}

/-- The first row of the frame of row `i`. -/
def start (f : Forward η) (i : Nat) : Nat := if f.currentRowOnly then i else 0

/-- The frame has come to row `i`: it has taken in the rows before, or what it holds does not
matter. -/
def Reached (H : Nat → Nat → η → Prop) (i : Nat) (f : Forward η) : Prop :=
  if f.currentRowOnly then ∃ a b, H a b f.tally else H 0 i f.tally

theorem process_eq [Tally η] {t : η}
    (hadd : Tally.add row (if f.currentRowOnly then Tally.clear f.tally else f.tally) = .ok () t) :
    process row f = .ok (Tally.values t) { f with tally := t } := by
  obtain ⟨tally, currentRowOnly⟩ := f
  have hpart {g : Forward η} (h : Tally.add row g.tally = .ok () t) :
      Action.onPart Forward.tally (fun f t => { f with tally := t }) (Tally.add row) g =
        .ok () { g with tally := t } :=
    Action.onPart_of_ok h
  unfold process
  rw [Action.modify_bind]
  cases currentRowOnly with
  | true => exact Action.bind_of_ok (@hpart ⟨Tally.clear tally, true⟩ hadd)
  | false => exact Action.bind_of_ok (@hpart ⟨tally, false⟩ hadd)

/-- **One row.** The values for row `i` are those of a tally that holds the rows from the start
of its frame up to it. -/
theorem exists_process [Tally η] (hH : Tally.Follows rows canRemove H) (hf : Reached H i f)
    (hrow : rows[i]? = some row) :
    ∃ t, process row f = .ok (Tally.values t) { f with tally := t } ∧ H (f.start i) (i + 1) t ∧
      Reached H (i + 1) { f with tally := t } := by
  obtain ⟨tally, currentRowOnly⟩ := f
  cases currentRowOnly with
  | true =>
    obtain ⟨a, b, hab⟩ := hf
    obtain ⟨t, hadd, ht⟩ := hH.add (hH.clear hab i) (Nat.le_refl i) hrow
    exact ⟨t, process_eq hadd, ht, i, i + 1, ht⟩
  | false =>
    have htally : H 0 i tally := hf
    obtain ⟨t, hadd, ht⟩ := hH.add htally (Nat.zero_le i) hrow
    exact ⟨t, process_eq hadd, ht, ht⟩

end Forward

end SqlWindow
