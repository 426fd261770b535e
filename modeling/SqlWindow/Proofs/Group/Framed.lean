import SqlWindow.Proofs.Frame.Evaluates
import SqlWindow.Proofs.Group.Calls
import SqlWindow.Proofs.Group.Values

set_option autoImplicit false

/-! # Groups over frames

A group whose calls are no lookups has one frame. `Frame.Moves` says what such a frame does on
every partition of conforming rows, whatever is known of the rows that it holds; `Frame.Serves`
says it of the rows that its calls have taken in, and from this follow the values of the group.
-/

namespace SqlWindow

variable {σ : Type} {types : List DataType}

namespace Frame

/-- What a frame is for, on every partition of conforming rows: it is as built, with a tally
`fresh`, it answers every row, and the values for row `i` are those of a tally that holds rows of
which `W rows i` says that they are the frame of this row. -/
structure Serves (types : List DataType) (fresh : CallTally σ)
    (W : List Row → Nat → List Row → Prop) (f : Frame σ) : Prop where
  renew_eq : f.renew = f
  tally_eq : f.tally = fresh
  evaluates : ∀ rows, (∀ row ∈ rows, Row.Conforms row types) →
    ∃ v, Evaluates rows f v ∧ ∀ i, i < rows.length → Shows types fresh (W rows) i (v i)

/-- What a frame is for, whatever is known of the rows that its tally holds: it is as built, with
a tally `fresh`, and on every partition of conforming rows it tracks the frames that `W` describes.
Rows go out of it only where `retracts` says so. -/
structure Moves (types : List DataType) (fresh : CallTally σ) (retracts : Prop)
    (W : List Row → Nat → List Row → Prop) (f : Frame σ) : Prop where
  renew_eq : f.renew = f
  tally_eq : f.tally = fresh
  tracks : ∀ rows, (∀ row ∈ rows, Row.Conforms row types) → f.Tracks rows fresh retracts (W rows)

variable {fresh : CallTally σ} {retracts : Prop} {W W' : List Row → Nat → List Row → Prop}
  {f : Frame σ}

theorem Moves.serves (h : f.Moves types fresh retracts W) (hframed : fresh.IsFramed types)
    (hcan : retracts → fresh.SupportsRetract) : f.Serves types fresh W where
  renew_eq := h.renew_eq
  tally_eq := h.tally_eq
  evaluates rows hrows := (h.tracks rows hrows).exists_shows hframed hcan hrows

theorem Moves.imp (h : f.Moves types fresh retracts W)
    (hW : ∀ rows, (∀ row ∈ rows, Row.Conforms row types) → ∀ i held, W rows i held →
      W' rows i held) : f.Moves types fresh retracts W' where
  renew_eq := h.renew_eq
  tally_eq := h.tally_eq
  tracks rows hrows H hH hstart := by
    obtain ⟨v, hv, hall⟩ := h.tracks rows hrows H hH hstart
    refine ⟨v, hv, fun i hi => ?_⟩
    obtain ⟨t, lo, hi', hvalues, ht, hwindow⟩ := hall i hi
    exact ⟨t, lo, hi', hvalues, ht, hW rows hrows i _ hwindow⟩

theorem moves_whole (h : fresh.IsFramed types) :
    (whole { tally := fresh }).Moves types fresh retracts fun rows _ held => held = rows where
  renew_eq := congrArg (fun t => whole { tally := t }) h.renew_eq
  tally_eq := rfl
  tracks _ _ := tracks_whole h

theorem moves_forward (h : fresh.IsFramed types) (currentRowOnly : Bool) :
    (forward ⟨fresh, currentRowOnly⟩).Moves types fresh retracts fun rows i held =>
      held = rowsBetween rows (if currentRowOnly then i else 0) (i + 1) where
  renew_eq := congrArg (fun t => forward ⟨t, currentRowOnly⟩) h.renew_eq
  tally_eq := rfl
  tracks _ _ := tracks_forward h currentRowOnly

theorem moves_rowDistance (h : fresh.IsFramed types) {lower upper : Option Int64}
    (hcan : lower = none ∨ retracts) :
    (rowDistance { held := { tally := fresh }, lower, upper }).Moves types fresh retracts
      fun rows i held => held = RowDistance.rowsWithin lower upper i rows where
  renew_eq :=
    congrArg (fun t => rowDistance { held := { tally := t }, lower, upper }) h.renew_eq
  tally_eq := rfl
  tracks _ _ := tracks_rowDistance h hcan

end Frame

namespace WindowGroup

variable {g : WindowGroup} {fresh : CallTally σ} {retracts : Prop}
  {W : List Row → Nat → List Row → Prop}

/-- A group over a frame has one frame, with the tally of its calls. -/
structure Framed (g : WindowGroup) (types : List DataType) (W : List Row → Nat → List Row → Prop)
    (f : Frame σ) (fresh : CallTally σ) : Prop where
  frames : Frame.ofGroup g Registry.builtin = .ok [f]
  tally : CallTally.ofCalls g.calls Registry.builtin = .ok fresh
  isFramed : fresh.IsFramed types
  serves : f.Serves types fresh W
  calls : ∀ c ∈ g.calls, ∃ a : Accumulator σ, c.Accepted types Registry.builtin a

/-- A group over a frame, from which rows go out only where `retracts` says so. -/
structure HasFrame (g : WindowGroup) (types : List DataType) (retracts : Prop)
    (W : List Row → Nat → List Row → Prop) (f : Frame σ) (fresh : CallTally σ) : Prop where
  frames : Frame.ofGroup g Registry.builtin = .ok [f]
  tally : CallTally.ofCalls g.calls Registry.builtin = .ok fresh
  isFramed : fresh.IsFramed types
  canRemove : retracts → fresh.SupportsRetract
  moves : f.Moves types fresh retracts W
  calls : ∀ c ∈ g.calls, ∃ a : Accumulator σ, c.Accepted types Registry.builtin a

theorem HasFrame.framed {f : Frame σ} (h : g.HasFrame types retracts W f fresh) :
    g.Framed types W f fresh where
  frames := h.frames
  tally := h.tally
  isFramed := h.isFramed
  serves := h.moves.serves h.isFramed h.canRemove
  calls := h.calls

theorem HasFrame.imp {W' : List Row → Nat → List Row → Prop} {f : Frame σ}
    (h : g.HasFrame types retracts W f fresh)
    (hW : ∀ rows, (∀ row ∈ rows, Row.Conforms row types) → ∀ i held, W rows i held →
      W' rows i held) : g.HasFrame types retracts W' f fresh :=
  { h with moves := h.moves.imp hW }

/-- The tally of the calls of a group over a frame. -/
theorem FrameAccepted.exists_tally {shape : FrameShape}
    (h : g.FrameAccepted types (Registry.builtin : Registry σ) shape) :
    ∃ fresh : CallTally σ, CallTally.ofCalls g.calls Registry.builtin = .ok fresh ∧
      fresh.IsFramed types ∧ (g.Retracts shape → fresh.SupportsRetract) := by
  obtain ⟨fresh, htally, hframed⟩ := CallTally.exists_ofCalls fun c hc =>
    (h.calls c hc).imp fun _ ha => ⟨ha.1, ha.2.1⟩
  exact ⟨fresh, htally, hframed, fun hretracts => CallTally.supportsRetract_of_ofCalls htally
    fun c hc => (h.calls c hc).imp fun _ ha => ⟨ha.1, ha.2.2 hretracts⟩⟩

theorem FrameAccepted.exists_accepted {shape : FrameShape}
    (h : g.FrameAccepted types (Registry.builtin : Registry σ) shape) :
    ∀ c ∈ g.calls, ∃ a : Accumulator σ, c.Accepted types Registry.builtin a :=
  fun c hc => (h.calls c hc).imp fun _ => And.left

/-- **The values of a group over a frame.** There are values for every row, and each is the value
of its call over the frame of the row. -/
theorem Framed.exists_values {f : Frame σ} (h : g.Framed types W f fresh) {rows : List Row}
    (hrows : ∀ row ∈ rows, Row.Conforms row types) {store : RowStore} (hstore : store.Holds rows) :
    ∃ values, g.values (Registry.builtin : Registry σ) store = .ok values ∧
      values.length = rows.length ∧
      ∀ (i k : Nat) (v : Row) (c : Call), values[i]? = some v → g.calls[k]? = some c →
        ∃ x held, v[k]? = some x ∧ W rows i held ∧ c.IsAnswer types held x := by
  obtain ⟨v, hv, hshows⟩ := h.serves.evaluates rows hrows
  obtain ⟨values, hvalues, hlength, hget, -⟩ :=
    exists_values_of_frame h.frames h.serves.renew_eq hv hstore
  refine ⟨values, hvalues, hlength, fun i k u c hu hc => ?_⟩
  have hi : i < rows.length := hlength ▸ (List.getElem?_eq_some_iff.mp hu).1
  obtain rfl : v i = u := Option.some.inj ((hget i hi).symm.trans hu)
  obtain ⟨t, held, hvi, hheld, hwindow⟩ := hshows i hi
  obtain ⟨a, ha⟩ := h.calls c (List.mem_of_getElem? hc)
  obtain ⟨x, hx, hanswer⟩ := hheld.isAnswer h.tally hc ha
  exact ⟨x, held, by rw [hvi, hx], hwindow, hanswer⟩

end WindowGroup

end SqlWindow
