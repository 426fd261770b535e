import SqlWindow.Proofs.Frame.Forgets
import SqlWindow.Proofs.Group.RangeFrame

set_option autoImplicit false

/-! # Frames from which no row goes out

Where rows only come in, or the frame starts anew with each row, what a function has taken in is
exactly the frame's rows in their order. So its result is the one of a fresh function that is told
the size of the partition and takes in these rows, whatever function it is: this also holds of
sums of floats, where the order of additions counts, and of functions that cannot give rows back.

The reason in one sentence: a reset takes a built-in function back to where it was at the start of
the partition, window size included, so there is one fold to be followed through all four kinds of
frames (`CallTally.IsFramed.follows_holding`).
-/

namespace SqlWindow

variable {σ : Type} {types : List DataType}

/-! ## Functions -/

namespace Accumulator

variable {a : Accumulator σ}

/-- The function after some values have been added, one after the other. -/
def accumulateAll (vs : List Value) (a : Accumulator σ) : Accumulator σ :=
  vs.foldl (fun a v => a.accumulate v) a

theorem accumulateAll_concat (vs : List Value) (v : Value) (a : Accumulator σ) :
    a.accumulateAll (vs ++ [v]) = (a.accumulateAll vs).accumulate v := by
  rw [accumulateAll, List.foldl_append]
  rfl

theorem IsBuiltin.accumulate (h : a.IsBuiltin) (v : Value) : (a.accumulate v).IsBuiltin := by
  cases a <;> exact h

theorem IsBuiltin.prepared (h : a.IsBuiltin) (size : Nat) : (a.prepared size).IsBuiltin := by
  cases a <;> exact h

theorem reset_accumulateAll (h : a.IsBuiltin) (vs : List Value) :
    (a.accumulateAll vs).reset = a.reset := by
  induction vs generalizing a with
  | nil => rfl
  | cons v vs ih => exact (ih (h.accumulate v)).trans (reset_accumulate h.forgets v)

/-- A reset takes nothing from a function at the start of a partition, its window size neither. -/
theorem reset_prepared (h : a.IsBuiltin) (size : Nat) :
    (a.prepared size).reset = a.prepared size := by
  cases a <;> first | rfl | exact h.elim

/-- To start a partition, a new function has to be told its size and nothing else. -/
theorem IsNew.prepared_eq (h : a.IsNew) (size : Nat) : a.prepared size = a.setWindowSize size := by
  obtain ⟨hbuiltin, hrenew⟩ := h
  rw [← hrenew]
  cases a <;> first | rfl | exact hbuiltin.elim

theorem accumulateAll_cumeDist (vs : List Value) (s : CumeDist) :
    (cumeDist s : Accumulator σ).accumulateAll vs =
      cumeDist { s with seen := s.seen + vs.length } := by
  induction vs generalizing s with
  | nil => rfl
  | cons v vs ih =>
    refine (ih { s with seen := s.seen + 1 }).trans ?_
    rw [List.length_cons, Nat.add_right_comm]
    rfl

/-- CUME_DIST is the share of the rows that it has taken in. -/
theorem IsNew.result_accumulateAll_cumeDist (h : a.IsNew) (hname : a.name = "CUME_DIST")
    {size : Nat} (hsize : size ≠ 0) (vs : List Value) :
    ((a.setWindowSize size).accumulateAll vs).result =
      .float ((Double.ofInt vs.length).div (Double.ofInt size)) := by
  cases a with
  | cumeDist s =>
    have hs : ({} : CumeDist) = s := by simpa [renew] using h.2
    subst hs
    show ((cumeDist _).accumulateAll vs).result = _
    rw [accumulateAll_cumeDist]
    simp only [result, CumeDist.share, hsize, if_false, Nat.zero_add]
  | user => exact h.1.elim
  | _ => simp [name] at hname

end Accumulator

/-! ## Tallies -/

namespace Slot

/-- What a slot is fed on some rows. -/
def fed (s : Slot σ) (rows : List Row) : List Value :=
  rows.filterMap fun row => (feed s.value row).toOption

/-- The slot after it has taken in some rows. -/
def holding (rows : List Row) (s : Slot σ) : Slot σ :=
  { s with accumulator := s.accumulator.accumulateAll (s.fed rows) }

variable {s : Slot σ} {row : Row} {rows : List Row} {type : DataType}

theorem map_feed_eq (htype : feedType types s.value = .ok type)
    (hrows : ∀ row ∈ rows, Row.Conforms row types) :
    rows.map (feed s.value) = (s.fed rows).map Except.ok := by
  induction rows with
  | nil => rfl
  | cons row rows ih =>
    obtain ⟨hrow, hrest⟩ := List.forall_mem_cons.mp hrows
    obtain ⟨v, hv, -⟩ := exists_feed htype hrow
    rw [List.map_cons, ih hrest, hv, fed, fed, List.filterMap_cons, hv]
    rfl

theorem add_holding (htype : feedType types s.value = .ok type) (hrow : Row.Conforms row types) :
    add row (s.holding rows) = .ok () (s.holding (rows ++ [row])) := by
  obtain ⟨v, hv, -⟩ := exists_feed htype hrow
  have hfeed : feed (s.holding rows).value row = .ok v := hv
  rw [add_of_feed hfeed]
  have hfed : s.fed (rows ++ [row]) = s.fed rows ++ [v] := by
    rw [fed, List.filterMap_append, List.filterMap_cons, hv]
    rfl
  rw [holding, holding, hfed, Accumulator.accumulateAll_concat]

end Slot

namespace CallTally

/-- The tally after it has taken in some rows. -/
def holding (rows : List Row) (t : CallTally σ) : CallTally σ := ⟨t.slots.map (Slot.holding rows)⟩

variable {fresh : CallTally σ} {rows : List Row}

theorem holding_nil (t : CallTally σ) : t.holding [] = t :=
  congrArg CallTally.mk (List.map_id' t.slots)

/-- At the start of a partition the functions are built-in ones, and what they are fed has a
type. -/
theorem IsFramed.slots_prepared (h : fresh.IsFramed types) (size : Nat) :
    ∀ s ∈ (fresh.map (Accumulator.prepared size)).slots, s.accumulator.IsBuiltin ∧
      s.accumulator.reset = s.accumulator ∧ ∃ type, Slot.feedType types s.value = .ok type := by
  intro s hs
  obtain ⟨s₀, hs₀, rfl⟩ := List.mem_map.mp hs
  obtain ⟨hbuiltin, htype⟩ := h.fits s₀ hs₀
  exact ⟨hbuiltin.prepared size, Accumulator.reset_prepared hbuiltin size, htype⟩

/-- **Folding follows the rows** of a partition as long as none goes out. -/
theorem IsFramed.follows_holding (h : fresh.IsFramed types)
    (hrows : ∀ row ∈ rows, Row.Conforms row types) (size : Nat) :
    Tally.Follows rows False fun a b t =>
      t = (fresh.map (Accumulator.prepared size)).holding (rowsBetween rows a b) where
  clear {a b t} ht c := by
    subst ht
    rw [rowsBetween_self, holding_nil]
    show CallTally.mk ((List.map _ _).map _) = _
    rw [List.map_map]
    refine congrArg CallTally.mk (map_eq_self fun s hs => ?_)
    obtain ⟨hbuiltin, hreset, -⟩ := h.slots_prepared size s hs
    have haccumulator : (s.holding (rowsBetween rows a b)).accumulator.reset = s.accumulator :=
      (Accumulator.reset_accumulateAll hbuiltin _).trans hreset
    exact congrArg (fun x => ({ s with accumulator := x } : Slot σ)) haccumulator
  move {a t} ht c := by
    rwa [rowsBetween_self] at ht ⊢
  add {a b t row} ht hab hrow := by
    subst ht
    have hconforms := hrows row (List.mem_of_getElem? hrow)
    have hadd : ∀ s ∈ (fresh.map (Accumulator.prepared size)).slots,
        Slot.add row (s.holding (rowsBetween rows a b)) =
          .ok () (s.holding (rowsBetween rows a (b + 1))) := by
      intro s hs
      obtain ⟨-, -, type, htype⟩ := h.slots_prepared size s hs
      rw [rowsBetween_succ hab hrow]
      exact Slot.add_holding htype hconforms
    have hok : ∀ s ∈ ((fresh.map (Accumulator.prepared size)).holding (rowsBetween rows a b)).slots,
        ∃ s', Slot.add row s = .ok () s' := by
      intro s' hs'
      obtain ⟨s, hs, rfl⟩ := List.mem_map.mp hs'
      exact ⟨_, hadd s hs⟩
    refine ⟨_, onSlots_of_ok hok, ?_⟩
    show CallTally.mk ((List.map _ _).map _) = _
    rw [List.map_map]
    refine congrArg CallTally.mk (List.map_congr_left fun s hs => ?_)
    show ((Slot.add row).outcome (s.holding (rowsBetween rows a b))).2 = _
    rw [Action.outcome_of_ok (hadd s hs)]
  remove hcan := hcan.elim

/-- The value of a call over some rows, in a partition of some length. -/
theorem exists_result_of_holding {calls : List Call}
    (hfresh : ofCalls calls (Registry.builtin : Registry σ) = .ok fresh) {k : Nat} {c : Call}
    {a : Accumulator σ} (hc : calls[k]? = some c) (ha : c.Accepted types Registry.builtin a)
    (hrows : ∀ row ∈ rows, Row.Conforms row types) (size : Nat) :
    ∃ fed, rows.map (Slot.feed c.value?) = fed.map Except.ok ∧
      (Tally.values ((fresh.map (Accumulator.prepared size)).holding rows))[k]? =
        some ((a.setWindowSize size).accumulateAll fed).result := by
  obtain ⟨s, hs, hcs⟩ := exists_slot_of_getElem? hfresh hc
  rw [ha.eq_slot hcs] at hs
  obtain ⟨type, htype⟩ := ha.exists_feedType
  refine ⟨_, @Slot.map_feed_eq _ _ ⟨a, c.value?, c.lookup.map Lookup.default⟩ _ _ htype hrows, ?_⟩
  show (List.map _ (List.map _ (List.map _ _)))[k]? = _
  rw [List.getElem?_map, List.getElem?_map, List.getElem?_map, hs,
    ← (Call.isNew_of_function ha.function).1.prepared_eq size]
  rfl

end CallTally

/-! ## The frames of rows -/

/-- The row does not come after the current one in an ordering. -/
def Row.isNotAfter (sort : List SortKey) (current row : Row) : Bool :=
  match Row.order sort row current with
  | .ok o => o.isLE
  | .error _ => false

theorem Edge.letsIn_upper_peers (sort : List SortKey) (current row : Row) :
    (Edge.mk .upper (.peers sort)).letsIn current row = Row.isNotAfter sort current row := by
  have hadmits : (Edge.mk .upper (.peers sort)).admits current row =
      Edge.isInside .upper <$> Row.order sort row current := by
    show (Row.order sort row current >>= fun o => pure (some o)) >>= _ = _
    cases Row.order sort row current <;> rfl
  unfold Edge.letsIn Row.isNotAfter
  rw [hadmits]
  cases Row.order sort row current with
  | error e => rfl
  | ok o => exact Edge.isInside_upper o

namespace WindowGroup

variable {g : WindowGroup} {rows : List Row} {current : Row}

/-- `frame` has the rows of the frame of row `i`, the current row, in their order. -/
inductive IsFrame (g : WindowGroup) (rows : List Row) (i : Nat) (current : Row) :
    (frame : List Row) → Prop
  /-- Without an ordering it is the whole partition. -/
  | whole (hsort : g.sort = []) : IsFrame g rows i current rows
  /-- By rows it has those between the signed distances at which the bounds lie. -/
  | rows {lower upper : Option Int64} (hsort : g.sort ≠ []) (hunit : g.unit = .rows)
    (hlower : g.lower.LiesAt lower) (hupper : g.upper.LiesAt upper) :
    IsFrame g rows i current (RowDistance.rowsWithin lower upper i rows)
  /-- By ordering values it has those that both edges admit. -/
  | range {lower upper : Edge} (hsort : g.sort ≠ []) (hunit : g.unit = .range)
    (hlower : Edge.ofBound .lower g.lower g.sort = .ok lower)
    (hupper : Edge.ofBound .upper g.upper g.sort = .ok upper) :
    IsFrame g rows i current (Edge.rowsAdmitted lower upper current rows)

/-- No row goes out of the frame of the group: nothing orders the rows, the frame starts at the
start of the partition, or it is the ROWS frame of the current row alone. -/
def NeverRetracts (g : WindowGroup) : Prop :=
  g.sort = [] ∨ g.lower = .unboundedPreceding ∨
    g.unit = .rows ∧ g.lower = .currentRow ∧ g.upper = .currentRow

/-- The frame of every row is the whole partition. -/
def IsWhole (g : WindowGroup) : Prop :=
  g.sort = [] ∨ g.lower = .unboundedPreceding ∧ g.upper = .unboundedFollowing

/-- The frame is the one of SQL where none is given. -/
def HasDefaultFrame (g : WindowGroup) : Prop :=
  g.unit = .range ∧ g.lower = .unboundedPreceding ∧ g.upper = .currentRow

variable {i : Nat} {frame : List Row}

theorem IsFrame.eq_of_isWhole (hframe : g.IsFrame rows i current frame) (h : g.IsWhole) :
    frame = rows := by
  cases hframe with
  | whole => rfl
  | rows hsort hunit hlower hupper =>
    obtain ⟨hl, hu⟩ := h.resolve_left hsort
    rw [hl] at hlower
    rw [hu] at hupper
    cases hlower
    cases hupper
    exact RowDistance.rowsWithin_none_none i rows
  | range hsort hunit hlower hupper =>
    obtain ⟨hl, hu⟩ := h.resolve_left hsort
    rw [hl] at hlower
    rw [hu] at hupper
    cases hlower
    cases hupper
    exact List.filter_eq_self.mpr fun _ _ => rfl

theorem IsFrame.eq_of_unit_eq_rows {lower upper : Option Int64}
    (hframe : g.IsFrame rows i current frame) (hsort : g.sort ≠ []) (hunit : g.unit = .rows)
    (hlower : g.lower.LiesAt lower) (hupper : g.upper.LiesAt upper) :
    frame = RowDistance.rowsWithin lower upper i rows := by
  cases hframe with
  | whole hnil => exact absurd hnil hsort
  | rows _ _ hlower' hupper' => rw [hlower.unique hlower', hupper.unique hupper']
  | range _ hrange => cases hunit.symm.trans hrange

/-- The default frame has the rows that do not come after the current one. -/
theorem IsFrame.eq_of_hasDefaultFrame (hframe : g.IsFrame rows i current frame)
    (h : g.HasDefaultFrame) : frame = rows.filter (Row.isNotAfter g.sort current) := by
  obtain ⟨hunit, hl, hu⟩ := h
  cases hframe with
  | whole hsort =>
    -- nothing orders the rows, so none comes after another
    rw [hsort]
    exact (List.filter_eq_self.mpr fun _ _ => rfl).symm
  | rows hsort hrows => cases hunit.symm.trans hrows
  | range hsort hunit hlower hupper =>
    rw [hl] at hlower
    rw [hu] at hupper
    cases hlower
    cases hupper
    exact List.filter_congr fun row _ => Edge.letsIn_upper_peers g.sort current row

theorem retracts_eq_false_of_neverRetracts (hnever : g.NeverRetracts) (hsort : g.sort ≠ [])
    {shape : FrameShape} (h : FrameShape.ofBounds g.unit g.lower g.upper = .ok shape) :
    shape.retracts = false := by
  rcases hnever with hnil | hlower | ⟨hunit, hlower, hupper⟩
  · exact absurd hnil hsort
  · rw [hlower] at h
    cases hupper : g.upper <;> rw [hupper] at h <;> cases h <;> rfl
  · rw [hunit, hlower, hupper] at h
    cases h
    rfl

/-- The frame of a group from which no row goes out. -/
theorem exists_hasFrame_of_neverRetracts (hmode : g.mode ≠ .offset) (hnever : g.NeverRetracts)
    (hfields : g.FieldsAccepted types) {shape : FrameShape}
    (h : g.FrameAccepted types (Registry.builtin : Registry σ) shape) :
    ∃ (f : Frame σ) (fresh : CallTally σ),
      g.HasFrame types False (fun rows i held =>
        (g.sort ≠ [] → g.unit = .range → Row.Sorted g.sort rows) →
        (g.sort ≠ [] → g.unit = .range → g.upper.CountsEvenly types g.sort rows) →
        ∀ current, rows[i]? = some current → g.IsFrame rows i current held) f fresh := by
  have hfalse (hsort : g.sort ≠ []) : (shape.retracts = true) = False := by
    rw [retracts_eq_false_of_neverRetracts hnever hsort h.shape_eq]
    exact eq_false nofun
  rcases mode_cases hmode with ⟨hsort, hcase⟩ | ⟨hsort, hunit, hcase⟩ | ⟨hsort, hunit, hcase⟩
  · obtain ⟨f, fresh, hframe⟩ := exists_hasFrame_of_mode_eq_insensitive hcase h
    refine ⟨f, fresh, hframe.imp ?_⟩
    rintro rows - i held rfl - - current -
    exact .whole hsort
  · obtain ⟨f, fresh, lower, upper, hlower, hupper, hframe⟩ :=
      exists_hasFrame_of_mode_eq_row hcase h
    rw [hfalse hsort] at hframe
    refine ⟨f, fresh, hframe.imp ?_⟩
    rintro rows - i held rfl - - current -
    exact .rows hsort hunit hlower hupper
  · obtain ⟨f, fresh, lower, upper, hlower, hupper, hframe⟩ :=
      exists_hasFrame_of_mode_eq_range hcase hfields h
    rw [hfalse hsort] at hframe
    refine ⟨f, fresh, hframe.imp ?_⟩
    intro rows hrows i held hheld hsorted hcounts current hcurrent
    -- the lower bound is the start of the partition, which no distance is counted from
    have hunbounded : g.lower = .unboundedPreceding := by
      rcases hnever with hnil | hlower | ⟨hrows, -⟩
      · exact absurd hnil hsort
      · exact hlower
      · cases hunit.symm.trans hrows
    rw [hunbounded] at hlower
    cases hlower
    rw [hheld (hsorted hsort hunit) trivial
      (EdgePlace.isEven_of_ofBound hupper hrows (hcounts hsort hunit)) current hcurrent]
    refine .range hsort hunit ?_ ?_
    · rw [hunbounded]
      rfl
    · rw [Edge.ofBound, hupper]
      rfl

/-! ## Values -/

/-- The value of a call for a row is that of one fold, over the rows that the frame of the row has,
whatever earlier partitions have left in the frames. -/
theorem exists_values_of_folds {position : Nat} {rows : List Row} {store : RowStore}
    (hcheck : g.check position types (Registry.builtin : Registry σ) = .ok ())
    (hmode : g.mode ≠ .offset) (hnever : g.NeverRetracts)
    (hrows : ∀ row ∈ rows, Row.Conforms row types)
    (hsorted : g.sort ≠ [] → g.unit = .range → Row.Sorted g.sort rows)
    (hcounts : g.sort ≠ [] → g.unit = .range → g.upper.CountsEvenly types g.sort rows)
    (hstore : store.Holds rows) :
    ∃ (frames : List (Frame σ)) (values : List Row),
      Frame.ofGroup g Registry.builtin = .ok frames ∧
      g.values (Registry.builtin : Registry σ) store = .ok values ∧
      (∀ left : List (Frame σ), left.map Frame.renew = frames →
        (Frame.askAll.outcome (left, store)).1 = .ok values) ∧
      values.length = rows.length ∧
      ∀ (i k : Nat) (current : Row) (c : Call), rows[i]? = some current →
        g.calls[k]? = some c → ∃ (a : Accumulator σ) (frame : List Row) (fed : List Value),
          c.function Registry.builtin = .ok a ∧ g.IsFrame rows i current frame ∧
          frame.map (Slot.feed c.value?) = fed.map Except.ok ∧
          (values[i]?.bind fun v => v[k]?) =
            some ((a.setWindowSize rows.length).accumulateAll fed).result := by
  obtain ⟨hfields, -, hframed⟩ := accepted_of_check hcheck
  obtain ⟨shape, hshape⟩ := hframed hmode
  obtain ⟨f, fresh, h⟩ := exists_hasFrame_of_neverRetracts hmode hnever hfields hshape
  obtain ⟨v, hv, hshows⟩ := h.moves.tracks rows hrows _
    (h.isFramed.follows_holding hrows rows.length)
    (by rw [rowsBetween_self, CallTally.holding_nil, CallTally.prepared_eq])
  obtain ⟨values, hvalues, hlength, hget, hleft⟩ :=
    exists_values_of_frame h.frames h.moves.renew_eq hv hstore
  refine ⟨[f], values, h.frames, hvalues, hleft, hlength, ?_⟩
  intro i k current c hcurrent hc
  have hi := (List.getElem?_eq_some_iff.mp hcurrent).1
  obtain ⟨t, lo, hi', hvi, rfl, hwindow⟩ := hshows i hi
  obtain ⟨a, ha⟩ := h.calls c (List.mem_of_getElem? hc)
  obtain ⟨fed, hfed, hresult⟩ := CallTally.exists_result_of_holding h.tally hc ha
    (fun row hrow => hrows row (mem_of_mem_rowsBetween hrow)) rows.length
  refine ⟨a, _, fed, ha.function, hwindow hsorted hcounts current hcurrent, hfed, ?_⟩
  rw [hget i hi, Option.bind_some, hvi, hresult]

/-- **Frames from which no row goes out fold.** For every accepted group without lookups whose
frame never retracts, every partition of conforming rows, which is sorted and counted evenly where
the frame goes by ordering values, and every row of it, the value of a call is, bit for bit, the
result of its function, freshly configured, that is told the size of the partition and takes in
what the call is fed on exactly the rows of the row's frame, in their order. It does not matter
what earlier partitions have left in the frames.

In particular CUME_DIST over the default frame is the number of rows that do not come after the
current one, divided by the number of all rows, and values over the whole partition are the same for
every row. -/
theorem values_over_folds {position : Nat} {rows : List Row} {store : RowStore}
    (hcheck : g.check position types (Registry.builtin : Registry σ) = .ok ())
    (hcalls : ∀ c ∈ g.calls, c.lookup = none) (hnever : g.NeverRetracts)
    (hrows : ∀ row ∈ rows, Row.Conforms row types)
    (hsorted : g.sort ≠ [] → g.unit = .range → Row.Sorted g.sort rows)
    (hcounts : g.sort ≠ [] → g.unit = .range → g.upper.CountsEvenly types g.sort rows)
    (hstore : store.Holds rows) :
    ∃ (frames : List (Frame σ)) (values : List Row),
      Frame.ofGroup g Registry.builtin = .ok frames ∧
      g.values (Registry.builtin : Registry σ) store = .ok values ∧
      (∀ left : List (Frame σ), left.map Frame.renew = frames →
        (Frame.askAll.outcome (left, store)).1 = .ok values) ∧
      values.length = rows.length ∧
      (∀ (i k : Nat) (current : Row) (c : Call), rows[i]? = some current →
        g.calls[k]? = some c → ∃ (a : Accumulator σ) (frame : List Row) (fed : List Value),
          c.function Registry.builtin = .ok a ∧ g.IsFrame rows i current frame ∧
          frame.map (Slot.feed c.value?) = fed.map Except.ok ∧
          (values[i]?.bind fun v => v[k]?) =
            some ((a.setWindowSize rows.length).accumulateAll fed).result ∧
          (a.name = "CUME_DIST" → g.HasDefaultFrame → (values[i]?.bind fun v => v[k]?) =
            some (.float ((Double.ofInt (rows.countP (Row.isNotAfter g.sort current))).div
              (Double.ofInt rows.length))))) ∧
      (g.IsWhole → ∀ i j k, i < rows.length → j < rows.length → k < g.calls.length →
        (values[i]?.bind fun v => v[k]?) = values[j]?.bind fun v => v[k]?) := by
  obtain ⟨frames, values, hframes, hvalues, hleft, hlength, hfold⟩ :=
    exists_values_of_folds hcheck (mode_ne_offset_of_lookup_eq_none hcalls) hnever hrows hsorted
      hcounts hstore
  refine ⟨frames, values, hframes, hvalues, hleft, hlength, ?_, ?_⟩
  · intro i k current c hcurrent hc
    obtain ⟨a, frame, fed, ha, hframe, hfed, hvalue⟩ := hfold i k current c hcurrent hc
    refine ⟨a, frame, fed, ha, hframe, hfed, hvalue, fun hname hdefault => ?_⟩
    have hi := (List.getElem?_eq_some_iff.mp hcurrent).1
    have hlength : fed.length = frame.length := by
      simpa using (congrArg List.length hfed).symm
    rw [hvalue, (Call.isNew_of_function ha).1.result_accumulateAll_cumeDist hname (by omega),
      hlength, hframe.eq_of_hasDefaultFrame hdefault, List.countP_eq_length_filter]
  · intro hwhole i j k hi hj hk
    have hc : g.calls[k]? = some g.calls[k] := List.getElem?_eq_getElem hk
    obtain ⟨a, frame, fed, ha, hframe, hfed, hvalue⟩ :=
      hfold i k rows[i] _ (List.getElem?_eq_getElem hi) hc
    obtain ⟨a', frame', fed', ha', hframe', hfed', hvalue'⟩ :=
      hfold j k rows[j] _ (List.getElem?_eq_getElem hj) hc
    -- one function, one frame, and so one fold
    obtain rfl := hframe.eq_of_isWhole hwhole
    obtain rfl := hframe'.eq_of_isWhole hwhole
    obtain rfl : a = a' := Except.ok.inj (ha.symm.trans ha')
    obtain rfl : fed = fed' :=
      List.map_injective_iff.mpr (fun _ _ => Except.ok.inj) (hfed.symm.trans hfed')
    rw [hvalue, hvalue']

/-- `CUME_DIST(), SUM($1) OVER (ORDER BY $0 ASC)`. -/
def shareAndSum : WindowGroup :=
  { partition := [], sort := [⟨0, true⟩], calls := [.make "CUME_DIST" [], .onField "SUM" 1] }

/-- Two peers and a row behind them; of the floats, `1 / 10`, `2 / 10` and `3 / 10`. -/
def shareAndSumRows : List Row :=
  [[.integer 1, .float ((Double.ofInt 1).div (Double.ofInt 10))],
    [.integer 1, .float ((Double.ofInt 2).div (Double.ofInt 10))],
    [.integer 2, .float ((Double.ofInt 3).div (Double.ofInt 10))]]

theorem values_over_folds_shareAndSum :
    ∃ (frames : List (Frame Empty)) (values : List Row),
      Frame.ofGroup shareAndSum Registry.builtin = .ok frames ∧
      shareAndSum.values (Registry.builtin : Registry Empty)
        { options := {}, rows := shareAndSumRows.toArray } = .ok values ∧
      (∀ left : List (Frame Empty), left.map Frame.renew = frames →
        (Frame.askAll.outcome (left, { options := {}, rows := shareAndSumRows.toArray })).1 =
          .ok values) ∧
      values.length = 3 ∧
      (∀ (i k : Nat) (current : Row) (c : Call), shareAndSumRows[i]? = some current →
        shareAndSum.calls[k]? = some c →
        ∃ (a : Accumulator Empty) (frame : List Row) (fed : List Value),
          c.function Registry.builtin = .ok a ∧
          shareAndSum.IsFrame shareAndSumRows i current frame ∧
          frame.map (Slot.feed c.value?) = fed.map Except.ok ∧
          (values[i]?.bind fun v => v[k]?) = some ((a.setWindowSize 3).accumulateAll fed).result ∧
          (a.name = "CUME_DIST" → shareAndSum.HasDefaultFrame →
            (values[i]?.bind fun v => v[k]?) = some (.float ((Double.ofInt
              (shareAndSumRows.countP (Row.isNotAfter shareAndSum.sort current))).div
                (Double.ofInt 3))))) ∧
      (shareAndSum.IsWhole → ∀ i j k, i < 3 → j < 3 → k < shareAndSum.calls.length →
        (values[i]?.bind fun v => v[k]?) = values[j]?.bind fun v => v[k]?) := by
  have hsorted : Row.Sorted shareAndSum.sort shareAndSumRows := by
    unfold Row.Sorted
    decide +kernel
  have hcalls : ∀ c ∈ shareAndSum.calls, c.lookup = none := by decide +kernel
  exact @values_over_folds _ [.integer, .float] shareAndSum 0 shareAndSumRows _ rfl hcalls
    (.inr (.inl rfl)) (by decide) (fun _ _ => hsorted) (fun _ _ _ hd => nomatch hd)
    (RowStore.holds_of_spill_eq_none rfl rfl)

/-- Both peers get the share of both, and the sums are rounded as they add up from the first row. -/
example : shareAndSum.values (Registry.builtin : Registry Empty)
    { options := {}, rows := shareAndSumRows.toArray } =
    .ok [[.float ⟨0x3fe5555555555555⟩, .float ⟨0x3fd3333333333334⟩],
      [.float ⟨0x3fe5555555555555⟩, .float ⟨0x3fd3333333333334⟩],
      [.float (Double.ofInt 1), .float ⟨0x3fe3333333333334⟩]] := by
  decide +kernel

end WindowGroup

end SqlWindow
