import SqlWindow.Proofs.Frame.Answers
import SqlWindow.Proofs.Frame.Edge
import SqlWindow.Proofs.Frame.Forward
import SqlWindow.Proofs.Frame.OtherRow
import SqlWindow.Proofs.Frame.RowDistance
import SqlWindow.Proofs.Frame.WholePartition

set_option autoImplicit false

/-! # Every kind of frame evaluates partitions

For each kind of frame: under what its group is accepted for, it answers every partition of
conforming rows, and the values for row `i` are those of a tally that holds the rows of the
frame of `i`. What it means to hold rows is left open as far as possible (`Frame.Tracks`), so that
more can be said of frames from which no row ever goes out.
-/

namespace SqlWindow

namespace Frame

variable {σ : Type} {types : List DataType} {rows : List Row} {fresh : CallTally σ}

/-- The values `v` for row `i` are those of a tally that holds, in the sense of `H`, consecutive
rows of which `W` says that they are the frame of this row. -/
def ShowsHeld (rows : List Row) (H : Nat → Nat → CallTally σ → Prop) (W : Nat → List Row → Prop)
    (i : Nat) (v : Row) : Prop :=
  ∃ t lo hi, v = Tally.values t ∧ H lo hi t ∧ W i (rowsBetween rows lo hi)

/-- The frame answers the partition and shows for every row the values of a tally that holds the
frame of this row. Any predicate will do for "holds" that is met at the start of the partition and
follows the rows, which go out again only where `retracts` says so. -/
def Tracks (rows : List Row) (fresh : CallTally σ) (retracts : Prop) (W : Nat → List Row → Prop)
    (f : Frame σ) : Prop :=
  ∀ H : Nat → Nat → CallTally σ → Prop, Tally.Follows rows retracts H →
    H 0 0 (Tally.setWindowSize rows.length (Tally.clear fresh)) →
    ∃ v, Evaluates rows f v ∧ ∀ i, i < rows.length → ShowsHeld rows H W i (v i)

/-- The values `v` for row `i` are those of a tally, built as `fresh`, that holds rows of which
`W` says that they are the frame of this row. -/
def Shows (types : List DataType) (fresh : CallTally σ) (W : Nat → List Row → Prop) (i : Nat)
    (v : Row) : Prop :=
  ∃ (t : CallTally σ) (held : List Row), v = Tally.values t ∧ t.Holds types fresh held ∧ W i held

variable {retracts : Prop}

/-- A frame over the whole partition starts with all rows held. -/
theorem exists_prepare_whole (h : fresh.IsFramed types) {H : Nat → Nat → CallTally σ → Prop}
    (hH : Tally.Follows rows retracts H)
    (hstart : H 0 0 (Tally.setWindowSize rows.length (Tally.clear fresh))) :
    ∃ u, H 0 rows.length u ∧ ∀ f : Frame σ, f.renew = whole { tally := fresh } →
      Reads rows prepare f () (whole ⟨u, Tally.values u⟩) := by
  obtain ⟨u, hu, hprepare⟩ := WholePartition.exists_prepare hH hstart
  refine ⟨u, hu, fun f hf s hs => ?_⟩
  obtain ⟨g, rfl, hg⟩ : ∃ g, f = whole g ∧ g.tally.renew = fresh := by
    cases f <;> cases hf
    exact ⟨_, rfl, rfl⟩
  exact reads_within (hprepare g (h.prepared_eq hg rows.length)) s hs

/-- A frame over the whole partition. -/
theorem tracks_whole (h : fresh.IsFramed types) :
    (whole { tally := fresh }).Tracks rows fresh retracts fun _ held => held = rows := by
  intro H hH hstart
  obtain ⟨u, hu, hprepare⟩ := exists_prepare_whole h hH hstart
  refine exists_evaluates (whole ⟨u, Tally.values u⟩) (fun _ f => f = whole ⟨u, Tally.values u⟩) _
    hprepare rfl ?_
  rintro i f row rfl -
  exact ⟨_, _, .get fun s _ => .pure _ _, rfl, u, 0, rows.length, rfl, hu,
    rowsBetween_zero_length rows⟩

/-- A frame that looks at no later row. -/
theorem tracks_forward (h : fresh.IsFramed types) (currentRowOnly : Bool) :
    (forward ⟨fresh, currentRowOnly⟩).Tracks rows fresh retracts fun i held =>
      held = rowsBetween rows (if currentRowOnly then i else 0) (i + 1) := by
  intro H hH hstart
  refine exists_evaluates
    (forward ⟨Tally.setWindowSize rows.length (Tally.clear fresh), currentRowOnly⟩)
    (fun i f => ∃ g : Forward (CallTally σ), f = forward g ∧ g.currentRowOnly = currentRowOnly ∧
      g.Reached H i) _ ?_ ?_ ?_
  · intro f hf s hs
    obtain ⟨g, rfl, hg, rfl⟩ : ∃ g : Forward (CallTally σ), f = forward g ∧
        g.tally.renew = fresh ∧ g.currentRowOnly = currentRowOnly := by
      cases f <;> cases hf
      exact ⟨_, rfl, rfl, rfl⟩
    refine ⟨s, ?_, hs, .refl s⟩
    show EStateM.Result.ok () (forward (g.prepare s.length), s) = _
    rw [Forward.prepare, hs.length_eq, h.prepared_eq hg]
  · refine ⟨_, rfl, rfl, ?_⟩
    cases currentRowOnly with
    | true => exact ⟨0, 0, hstart⟩
    | false => exact hstart
  · rintro i f row ⟨g, rfl, rfl, hreached⟩ hrow
    obtain ⟨t, hprocess, ht, hnext⟩ := Forward.exists_process hH hreached hrow
    refine ⟨Tally.values t, forward { g with tally := t }, ?_, ⟨_, rfl, rfl, hnext⟩, t, _, _, rfl,
      ht, rfl⟩
    exact .get fun s _ => reads_within (.onFirst hprocess)

/-- A frame by row distance, whatever `K` says of its tally before each row, as long as the slides
from window to window lead from each to the next. -/
theorem exists_evaluates_rowDistance {f₀ : RowDistance (CallTally σ)}
    (h : f₀.held.tally.IsFramed types)
    {K : Nat → Nat → Nat → CallTally σ → Prop}
    (hstart : K 0 0 0 (f₀.prepare rows.length).held.tally)
    (hslides : ∀ i, i < rows.length → RowDistance.Slides rows K (f₀.prepare rows.length) i) :
    ∃ v, Evaluates rows (rowDistance f₀) v ∧ ∀ i, i < rows.length → ∃ t, v i = Tally.values t ∧
      K (i + 1) ((f₀.prepare rows.length).window i).1 ((f₀.prepare rows.length).window i).2 t := by
  let f₁ := f₀.prepare rows.length
  refine exists_evaluates (rowDistance f₁)
    (fun i f => ∃ g, f = rowDistance g ∧ RowDistance.Reached K f₁ i g)
    (fun i v => ∃ t, v = Tally.values t ∧ K (i + 1) (f₁.window i).1 (f₁.window i).2 t) ?_
    ⟨f₁, rfl, RowDistance.reached_zero ⟨rfl, rfl, Nat.le_refl 0, hstart⟩⟩ ?_
  · intro f hf s hs
    obtain ⟨g, rfl, hg, hlower, hupper⟩ : ∃ g, f = rowDistance g ∧
        g.held.tally.renew = f₀.held.tally ∧ g.lower = f₀.lower ∧ g.upper = f₀.upper := by
      cases f <;> cases hf
      exact ⟨_, rfl, rfl, rfl, rfl⟩
    refine ⟨s, ?_, hs, .refl s⟩
    show EStateM.Result.ok () (rowDistance (g.prepare s.length), s) = _
    rw [RowDistance.prepare, Held.prepare, hs.length_eq, h.prepared_eq hg, hlower, hupper]
    rfl
  · rintro i f row ⟨g, rfl, hreached⟩ hrow
    obtain ⟨g', t, hread, ht, hnext⟩ :=
      RowDistance.exists_process (hslides i (List.getElem?_eq_some_iff.mp hrow).1) hreached
    exact ⟨Tally.values t, rowDistance g', .get fun s _ => reads_within hread, ⟨g', rfl, hnext⟩, t,
      rfl, ht⟩

/-- A frame by row distance. Rows leave it only where it has a lower bound. -/
theorem tracks_rowDistance (h : fresh.IsFramed types) {lower upper : Option Int64}
    (hcan : lower = none ∨ retracts) :
    (rowDistance { held := { tally := fresh }, lower, upper }).Tracks rows fresh retracts
      fun i held => held = RowDistance.rowsWithin lower upper i rows := by
  intro H hH hstart
  let f₀ : RowDistance (CallTally σ) := { held := { tally := fresh }, lower, upper }
  obtain ⟨v, hv, hall⟩ := @exists_evaluates_rowDistance _ _ rows f₀ h (fun _ => H) hstart fun i _ =>
    RowDistance.slides_of_follows hH rfl hcan i
  refine ⟨v, hv, fun i hi => ?_⟩
  obtain ⟨t, hvi, ht⟩ := hall i hi
  exact ⟨t, _, _, hvi, ht, (RowDistance.rowsWithin_eq rfl i).symm⟩

/-- A frame by key distance starts the partition with no row held and both edges in front. -/
theorem reads_prepare_keyDistance (h : fresh.IsFramed types) {lower upper : Edge} (f : Frame σ)
    (hf : f.renew = keyDistance { held := { tally := fresh }, lower, upper }) :
    Reads rows prepare f () (keyDistance
      { held := { tally := Tally.setWindowSize rows.length (Tally.clear fresh) }, lower, upper,
        length := rows.length }) := by
  intro s hs
  obtain ⟨g, rfl, hg, rfl, rfl⟩ : ∃ g, f = keyDistance g ∧ g.held.tally.renew = fresh ∧
      g.lower = lower ∧ g.upper = upper := by
    cases f <;> cases hf
    exact ⟨_, rfl, rfl, rfl, rfl⟩
  refine ⟨s, ?_, hs, .refl s⟩
  show EStateM.Result.ok () (keyDistance (g.prepare s.length), s) = _
  rw [KeyDistance.prepare, Held.prepare, hs.length_eq, h.prepared_eq hg]

/-- A frame by key distance, between edges that can be evaluated. Rows leave it only where its
lower edge does not admit all rows. -/
theorem tracks_keyDistance (h : fresh.IsFramed types) {lower upper : Edge}
    (hlower : lower.Total rows) (hupper : upper.Total rows)
    (hcan : (∀ i j, i < rows.length → j < rows.length → lower.Admits rows i j) ∨ retracts) :
    (keyDistance { held := { tally := fresh }, lower, upper }).Tracks rows fresh retracts
      fun i held => ∃ lo hi, held = rowsBetween rows lo (max lo hi) ∧
        (Edge.Ordered lower upper rows → ∀ j, j < rows.length →
          (lo ≤ j ∧ j < max lo hi ↔ lower.Admits rows i j ∧ upper.Admits rows i j)) := by
  intro H hH hstart
  let f₁ : KeyDistance (CallTally σ) :=
    { held := { tally := Tally.setWindowSize rows.length (Tally.clear fresh) }, lower, upper,
      length := rows.length }
  have hlength : f₁.length = rows.length := rfl
  refine exists_evaluates (keyDistance f₁)
    (fun i f => ∃ g, f = keyDistance g ∧ KeyDistance.Reached H rows f₁ i g) _
    (reads_prepare_keyDistance h)
    ⟨f₁, rfl, KeyDistance.reached_zero rfl rfl ⟨rfl, rfl, Nat.le_refl 0, hstart⟩⟩ ?_
  rintro i f row ⟨g, rfl, hreached⟩ hrow
  obtain ⟨g', hread, ht, -, hwindow, hnext⟩ :=
    KeyDistance.exists_process hH hlength hlower hupper hcan hreached hrow
  exact ⟨_, keyDistance g', .get fun s _ => reads_within hread, ⟨g', rfl, hnext⟩, _, _, _, rfl, ht,
    _, _, rfl, hwindow⟩

/-- What a tally holds in the sense of its calls is one of the predicates that a frame can be
followed with. -/
theorem Tracks.exists_shows {W : Nat → List Row → Prop} {f : Frame σ}
    (h : f.Tracks rows fresh retracts W) (hframed : fresh.IsFramed types)
    (hcan : retracts → fresh.SupportsRetract) (hrows : ∀ row ∈ rows, Row.Conforms row types) :
    ∃ v, Evaluates rows f v ∧ ∀ i, i < rows.length → Shows types fresh W i (v i) := by
  obtain ⟨v, hv, hall⟩ := h (CallTally.HoldsBetween types fresh rows)
    ((hframed.follows hrows).imp hcan) (hframed.holds_start rows rows.length)
  refine ⟨v, hv, fun i hi => ?_⟩
  obtain ⟨t, lo, hi', hvalues, ht, hwindow⟩ := hall i hi
  exact ⟨t, _, hvalues, ht, hwindow⟩

/-- A frame of one other row. -/
theorem exists_evaluates_otherRow (hnew : fresh.renew = fresh) (h : fresh.LooksUp types)
    (hrows : ∀ row ∈ rows, Row.Conforms row types) (direction : Direction) {offset : Operand}
    (hoffset : OtherRow.OffsetFits types offset) :
    ∃ v, Evaluates rows (otherRow { tally := fresh, direction, offset }) v ∧
      ∀ i, i < rows.length → ∀ current, rows[i]? = some current →
        OtherRow.Answers { tally := fresh, direction, offset, length := rows.length } fresh rows i
          current (v i) := by
  let f₁ : OtherRow σ := { tally := Tally.clear fresh, direction, offset, length := rows.length }
  have htally : f₁.tally.renew = fresh := (CallTally.renew_clear h.isBuiltin).trans hnew
  refine exists_evaluates (otherRow f₁) (fun _ f => ∃ g, f = otherRow g ∧ OtherRow.Reached f₁ g)
    (fun i v => ∀ current, rows[i]? = some current → f₁.Answers fresh rows i current v) ?_
    ⟨f₁, rfl, f₁.tally, rfl, rfl⟩ ?_
  · intro f hf s hs
    obtain ⟨g, rfl, hg, rfl, rfl⟩ : ∃ g, f = otherRow g ∧ g.tally.renew = fresh ∧
        g.direction = direction ∧ g.offset = offset := by
      cases f <;> cases hf
      exact ⟨_, rfl, rfl, rfl, rfl⟩
    refine ⟨s, ?_, hs, .refl s⟩
    show EStateM.Result.ok () (otherRow (g.prepare s.length), s) = _
    rw [OtherRow.prepare, hs.length_eq, (CallTally.looksUp_of_renew_eq h hg).clear_congr
      (hg.trans hnew.symm)]
  · rintro i f row ⟨g, rfl, hreached⟩ hrow
    obtain ⟨v, g', hread, hnext, hanswers⟩ := OtherRow.exists_process (htally ▸ h) hoffset rfl hrows
      hreached hrow
    rw [htally] at hanswers
    refine ⟨v, otherRow g', .get fun s _ => reads_within hread, ⟨g', rfl, hnext⟩, ?_⟩
    intro current hcurrent
    rw [hrow] at hcurrent
    cases hcurrent
    exact hanswers

end Frame

end SqlWindow
