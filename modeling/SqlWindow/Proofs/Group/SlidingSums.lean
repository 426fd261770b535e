import SqlWindow.Proofs.Frame.Slid
import SqlWindow.Proofs.Group.Folds

set_option autoImplicit false

/-! # Sums that slide

SUM and AVG take a float back by subtracting it. As subtraction does not undo a rounded addition,
let alone one of a NaN or an infinity, a float that has left the frame may live on in the sum: until
no float is left, when the sum of the floats starts at zero again.

So the value for a row depends on the rows since the last frame into which no float has passed over
from the frame before. From this row on, two partitions that agree on the frames have the same
values (`WindowGroup.values_of_sliding_sums`); and for a row that comes before this one they may
differ (`WindowGroup.values_behind_departed_floats`).
-/

namespace SqlWindow

variable {σ : Type} {types : List DataType} {rows rows' : List Row}

/-! ## Functions -/

namespace Accumulator

/-- The function is SUM or AVG. -/
def IsSum : Accumulator σ → Prop
  | sum _ | avg _ => True
  | _ => False

variable {a b : Accumulator σ} {type : DataType} {vs : List Value}

theorem IsSum.supportsRetract (h : a.IsSum) : a.supportsRetract = true := by
  cases a <;> first | rfl | exact h.elim

@[simp] theorem isSum_renew : a.renew.IsSum ↔ a.IsSum := by
  cases a <;> exact Iff.rfl

@[simp] theorem isSum_setWindowSize (size : Nat) : (a.setWindowSize size).IsSum ↔ a.IsSum := by
  cases a <;> exact Iff.rfl

theorem isSum_of_name (h : a.IsBuiltin) (hname : a.name = "SUM" ∨ a.name = "AVG") : a.IsSum := by
  cases a <;> first | trivial | exact h.elim | simp [name] at hname

/-- As long as no float is held, what a sum holds is all there is to it. -/
theorem IsSum.eq_of_holds (h : a.IsSum) (hab : a.renew = b.renew) (ha : a.Holds type vs)
    (hb : b.Holds type vs) (hvs : ∀ v ∈ vs, v.isFloat = false) : a = b := by
  cases a with
  | sum s =>
    cases b <;> cases hab
    exact congrArg sum (RunningSum.Holds.eq_of_no_floats ha hb hvs)
  | avg s =>
    cases b <;> cases hab
    exact congrArg avg (RunningSum.Holds.eq_of_no_floats ha hb hvs)
  | _ => exact h.elim

end Accumulator

/-! ## Slots -/

namespace Slot

/-- The slot was built as `s₀` was, and it holds the rows. -/
structure HoldsAs (types : List DataType) (s s₀ : Slot σ) (rows : List Row) : Prop where
  renew_eq : s.renew = s₀.renew
  holds : s.Holds types rows

/-- What a call is fed on some rows is no float. -/
def FedNoFloat (operand : Option Operand) (rows : List Row) : Prop :=
  ∀ row ∈ rows, ∀ v, feed operand row = .ok v → v.isFloat = false

variable {s t s₀ : Slot σ} {row : Row} {held gone : List Row}

theorem HoldsAs.accumulator_eq (h : s.HoldsAs types s₀ held) :
    s.accumulator.renew = s₀.accumulator.renew :=
  (Slot.mk.inj h.renew_eq).1

theorem HoldsAs.fallback_eq (h : s.HoldsAs types s₀ held) : s.fallback = s₀.fallback :=
  (Slot.mk.inj h.renew_eq).2.2

theorem HoldsAs.isSum (h : s.HoldsAs types s₀ held) (hsum : s₀.accumulator.IsSum) :
    s.accumulator.IsSum := by
  rw [← Accumulator.isSum_renew, h.accumulator_eq]
  exact Accumulator.isSum_renew.mpr hsum

theorem HoldsAs.keeps (h : s.HoldsAs types s₀ held) :
    Accumulator.Keeps Accumulator.renew s.renew.accumulator :=
  Accumulator.keeps_renew (Accumulator.isBuiltin_renew.mpr h.holds.isBuiltin)

theorem HoldsAs.reset (h : s.HoldsAs types s₀ held) :
    HoldsAs types { s with accumulator := s.accumulator.reset } s₀ [] := by
  obtain ⟨type, vs, htype, -, -, hholds⟩ := h.holds
  refine ⟨Eq.trans ?_ h.renew_eq, type, [], htype, rfl, by simp,
    Accumulator.holds_reset hholds.isBuiltin⟩
  exact congrArg (Slot.mk · s.value s.fallback) (Accumulator.renew_reset hholds.isBuiltin)

/-- Rows come in. -/
theorem HoldsAs.plus (h : s.HoldsAs types s₀ held) (hrows : ∀ row ∈ rows, Row.Conforms row types) :
    (s.plus rows).HoldsAs types s₀ (held ++ rows) := by
  induction rows generalizing s held with
  | nil => rwa [List.append_nil]
  | cons row rows ih =>
    obtain ⟨hrow, hrest⟩ := List.forall_mem_cons.mp hrows
    obtain ⟨t, hadd, ht⟩ := h.holds.add hrow
    have hrenew : t.renew = s.renew := (preserves_add h.keeps row).of_ok rfl hadd
    have hall := ih ⟨hrenew.trans h.renew_eq, ht⟩ hrest
    have hstep : s.plus (row :: rows) = t.plus rows := by
      show Slot.plus rows ((Slot.add row).outcome s).2 = _
      rw [Action.outcome_of_ok hadd]
    rwa [hstep, ← List.singleton_append, ← List.append_assoc]

/-- Rows go out of a sum. -/
theorem HoldsAs.minus (h : s.HoldsAs types s₀ (gone ++ held)) (hfallback : s₀.fallback = none)
    (hsum : s₀.accumulator.IsSum) : (s.minus gone).HoldsAs types s₀ held := by
  induction gone generalizing s with
  | nil => exact h
  | cons row gone ih =>
    obtain ⟨t, hremove, ht⟩ := Holds.remove h.holds (h.fallback_eq.trans hfallback)
      (h.isSum hsum).supportsRetract
    have hrenew : t.renew = s.renew := (preserves_remove h.keeps row).of_ok rfl hremove
    have hstep : s.minus (row :: gone) = t.minus gone := by
      show Slot.minus gone ((Slot.remove row).outcome s).2 = _
      rw [Action.outcome_of_ok hremove]
    rw [hstep]
    exact ih ⟨hrenew.trans h.renew_eq, ht⟩

/-- As long as no float is held, two slots of one sum that hold the same rows are equal. -/
theorem HoldsAs.eq_of_fedNoFloat (hs : s.HoldsAs types s₀ rows) (ht : t.HoldsAs types s₀ rows)
    (hsum : s₀.accumulator.IsSum) (hnone : FedNoFloat s₀.value rows) : s = t := by
  have hsum' := hs.isSum hsum
  have haccumulator := hs.accumulator_eq.trans ht.accumulator_eq.symm
  obtain ⟨hs₀, type, vs, htype, hvs, -, hholds⟩ := hs
  obtain ⟨ht₀, type', vs', htype', hvs', -, hholds'⟩ := ht
  obtain ⟨accumulator, value, fallback⟩ := s
  obtain ⟨accumulator', value', fallback'⟩ := t
  obtain ⟨-, rfl, rfl⟩ := Slot.mk.inj hs₀
  obtain ⟨-, rfl, rfl⟩ := Slot.mk.inj ht₀
  obtain rfl : type = type' := Except.ok.inj (htype.symm.trans htype')
  obtain rfl : vs = vs' :=
    List.map_injective_iff.mpr (fun _ _ => Except.ok.inj) (hvs.symm.trans hvs')
  refine congrArg (Slot.mk · s₀.value s₀.fallback)
    (hsum'.eq_of_holds haccumulator hholds hholds' fun v hv => ?_)
  have hfed : Except.ok v ∈ rows.map (feed s₀.value) := hvs ▸ List.mem_map_of_mem hv
  obtain ⟨row, hrow, hfeed⟩ := List.mem_map.mp hfed
  exact hnone row hrow v hfeed

/-- A slot of a sum starts anew with a frame into which no float has passed over: it is as if the
rows of this frame had come in and none before. -/
theorem before_succ_eq_plus {f : RowDistance (CallTally σ)} {i : Nat}
    (hbefore : (before f rows i s₀).HoldsAs types s₀
      (rowsBetween rows (f.windowBefore i).1 (f.windowBefore i).2))
    (hempty : s₀.HoldsAs types s₀ []) (hfallback : s₀.fallback = none)
    (hsum : s₀.accumulator.IsSum) (hrows : ∀ row ∈ rows, Row.Conforms row types)
    (hnone : FedNoFloat s₀.value (rowsBetween rows (f.window i).1 (f.windowBefore i).2)) :
    before f rows (i + 1) s₀ = s₀.plus (rowsBetween rows (f.window i).1 (f.window i).2) := by
  have hnothing : FedNoFloat s₀.value [] := fun _ h => absurd h List.not_mem_nil
  rw [before, slid]
  by_cases happart : (f.windowBefore i).2 ≤ (f.window i).1
  -- no row stays: the slot is reset, or it has held no row anyway
  · rw [if_pos happart]
    refine congrArg (plus _) ?_
    by_cases hsome : (f.windowBefore i).1 < (f.windowBefore i).2
    · rw [if_pos hsome]
      exact hbefore.reset.eq_of_fedNoFloat hempty hsum hnothing
    · rw [if_neg hsome]
      rw [rowsBetween_of_le (Nat.le_of_not_lt hsome)] at hbefore
      exact hbefore.eq_of_fedNoFloat hempty hsum hnothing
  -- rows without floats stay, and the slot holds them as a new one would
  · rw [if_neg happart]
    have hmeet := Nat.le_of_not_le happart
    rw [← rowsBetween_append (RowDistance.windowBefore_fst_le f i) hmeet] at hbefore
    have hnew : (s₀.plus (rowsBetween rows (f.window i).1 (f.windowBefore i).2)).HoldsAs types s₀
        (rowsBetween rows (f.window i).1 (f.windowBefore i).2) :=
      hempty.plus fun row hrow => hrows row (mem_of_mem_rowsBetween hrow)
    rw [(hbefore.minus hfallback hsum).eq_of_fedNoFloat hnew hsum hnone, ← plus_append,
      rowsBetween_append hmeet (RowDistance.windowBefore_snd_le f i)]

/-- What comes in one by one is what is folded. -/
theorem plus_eq_holding {type : DataType} (htype : feedType types s.value = .ok type)
    (hrows : ∀ row ∈ rows, Row.Conforms row types) : s.plus rows = s.holding rows := by
  have hall : ∀ held, (s.holding held).plus rows = s.holding (held ++ rows) := by
    induction rows with
    | nil => exact fun held => by rw [List.append_nil]; rfl
    | cons row rows ih =>
      obtain ⟨hrow, hrest⟩ := List.forall_mem_cons.mp hrows
      intro held
      show Slot.plus rows ((add row).outcome (s.holding held)).2 = _
      rw [Action.outcome_of_ok (add_holding htype hrow), ih hrest, List.append_assoc]
      rfl
  exact hall []

end Slot

/-! ## Groups -/

namespace WindowGroup

variable {g : WindowGroup} {shape : FrameShape}

/-- The slot of a call at the start of a partition. -/
def startSlot (c : Call) (a : Accumulator σ) (size : Nat) : Slot σ :=
  ⟨a.setWindowSize size, c.value?, none⟩

theorem getElem?_prepared {fresh : CallTally σ}
    (hfresh : CallTally.ofCalls g.calls Registry.builtin = .ok fresh)
    (h : g.FrameAccepted types (Registry.builtin : Registry σ) shape) {k : Nat} {c : Call}
    {a : Accumulator σ} (hc : g.calls[k]? = some c) (ha : c.function Registry.builtin = .ok a)
    (size : Nat) :
    fresh.slots[k]? = some ⟨a, c.value?, none⟩ ∧
      (fresh.map (Accumulator.prepared size)).slots[k]? = some (startSlot c a size) := by
  obtain ⟨s, hs, hcs⟩ := CallTally.exists_slot_of_getElem? hfresh hc
  obtain ⟨a', ha', hlookup, -⟩ := h.calls c (List.mem_of_getElem? hc)
  obtain rfl : a' = a := Except.ok.inj (ha'.function.symm.trans ha)
  rw [ha'.eq_slot hcs, hlookup] at hs
  refine ⟨hs, ?_⟩
  show (fresh.slots.map _)[k]? = _
  rw [List.getElem?_map, hs, startSlot, ← (Call.isNew_of_function ha).1.prepared_eq size]
  rfl

/-- **The values of a frame that slides** are those of slots that have slid from window to
window. -/
theorem exists_values_slid (hmode : g.mode = .row)
    (h : g.FrameAccepted types (Registry.builtin : Registry σ) shape)
    (hretracts : shape.retracts = true) :
    ∃ f₀ : RowDistance (CallTally σ), g.lower.LiesAt f₀.lower ∧ g.upper.LiesAt f₀.upper ∧
      ∀ (rows : List Row) (store : RowStore) (f : RowDistance (CallTally σ)),
        f = f₀.prepare rows.length → (∀ row ∈ rows, Row.Conforms row types) → store.Holds rows →
        ∃ values, g.values (Registry.builtin : Registry σ) store = .ok values ∧
          ∀ (i k : Nat) (c : Call) (a : Accumulator σ) (s₀ : Slot σ), i < rows.length →
            g.calls[k]? = some c → c.function Registry.builtin = .ok a →
            s₀ = startSlot c a rows.length →
            (values[i]?.bind fun v => v[k]?) =
              some (Slot.before f rows (i + 1) s₀).accumulator.result ∧
            (Slot.before f rows i s₀).HoldsAs types s₀
              (rowsBetween rows (f.windowBefore i).1 (f.windowBefore i).2) := by
  obtain ⟨lower, upper, hlower, hupper⟩ := exists_distances hmode h
  obtain ⟨fresh, htally, hframed, hcan⟩ := h.exists_tally
  let f₀ : RowDistance (CallTally σ) := { held := { tally := fresh }, lower, upper }
  refine ⟨f₀, hlower, hupper, ?_⟩
  rintro rows store f hf hrows hstore
  obtain ⟨v, hv, hvalues, hholds⟩ :=
    @Frame.exists_evaluates_slid _ _ _ f₀ hframed (hcan ⟨.inl hmode, hretracts⟩) hrows _ hf
  have hnew : (Frame.rowDistance f₀).renew = Frame.rowDistance f₀ :=
    (@Frame.moves_rowDistance _ _ _ True hframed lower upper (.inr trivial)).renew_eq
  obtain ⟨values, hgroup, -, hget, -⟩ := exists_values_of_frame (ofGroup_of_mode_eq_row hmode h
    htally (Frame.ofRows_of_retracts hlower hupper hretracts)) hnew hv hstore
  refine ⟨values, hgroup, ?_⟩
  rintro i k c a s₀ hi hc ha rfl
  obtain ⟨hfresh, hstart⟩ := getElem?_prepared htally h hc ha rows.length
  have hslot (j : Nat) : (f.tallyBefore rows j).slots[k]? =
      some (Slot.before f rows j (startSlot c a rows.length)) := by
    have htally : f.held.tally = fresh.map (Accumulator.prepared rows.length) := by
      subst hf
      exact CallTally.prepared_eq fresh rows.length
    rw [RowDistance.tallyBefore, htally]
    show (List.map _ _)[k]? = _
    rw [List.getElem?_map, hstart]
    rfl
  have hheld := hholds i (Nat.le_of_lt hi)
  refine ⟨?_, ?_, hheld.slots _ (List.mem_of_getElem? (hslot i))⟩
  · rw [hget i hi, Option.bind_some, hvalues i hi]
    show ((f.tallyBefore rows (i + 1)).slots.map _)[k]? = _
    rw [List.getElem?_map, hslot (i + 1)]
    rfl
  · -- all are the slot that was built for the call
    have hrenew : (f.tallyBefore rows i).slots[k]?.map Slot.renew = fresh.slots[k]? := by
      rw [← List.getElem?_map]
      exact congrArg (fun t : CallTally σ => t.slots[k]?) hheld.renew_eq
    rw [hslot i, hfresh] at hrenew
    have hbuilt : (startSlot c a rows.length).renew = ⟨a, c.value?, none⟩ := by
      have hisNew := (Call.isNew_of_function ha).1
      rw [startSlot, Slot.renew, Accumulator.renew_setWindowSize hisNew.1, hisNew.2]
    rw [hbuilt]
    exact Option.some.inj hrenew

/-- From the frame of the row before, no float passes over to the frame of row `j`: where a row lies
in both, the call is fed no float there. -/
def NoFloatPassesOver (c : Call) (lower upper : Option Int64) (rows : List Row) (j : Nat) : Prop :=
  ∀ i p row v, j = i + 1 → RowDistance.isWithin lower upper i p →
    RowDistance.isWithin lower upper j p → rows[p]? = some row →
    Slot.feed c.value? row = .ok v → v.isFloat = false

theorem NoFloatPassesOver.fedNoFloat {c : Call} {f : RowDistance (CallTally σ)} {j : Nat}
    (h : NoFloatPassesOver c f.lower f.upper rows j) (hlength : f.length = rows.length) :
    Slot.FedNoFloat c.value? (rowsBetween rows (f.window j).1 (f.windowBefore j).2) := by
  intro row hrow v hv
  obtain ⟨p, hlo, hhi, hp⟩ := exists_getElem?_of_mem_rowsBetween hrow
  have hlt : p < f.length := hlength ▸ (List.getElem?_eq_some_iff.mp hp).1
  cases j with
  | zero => exact absurd hhi (Nat.not_lt_zero p)
  | succ i =>
    have hfst := RowDistance.windowBefore_fst_le f (i + 1)
    have hsnd := RowDistance.windowBefore_snd_le f (i + 1)
    exact h i p row v rfl
      ((RowDistance.mem_window_iff hlt).mpr ⟨Nat.le_trans hfst hlo, hhi⟩)
      ((RowDistance.mem_window_iff hlt).mpr ⟨hlo, Nat.lt_of_lt_of_le hhi hsnd⟩) hp hv

theorem NoFloatPassesOver.before_succ {c : Call} {a : Accumulator σ}
    {f : RowDistance (CallTally σ)} {s₀ : Slot σ} {j : Nat}
    (h : NoFloatPassesOver c f.lower f.upper rows j) (hlength : f.length = rows.length)
    (hj : j < rows.length) (hsum : a.IsSum) (hs₀ : s₀ = startSlot c a rows.length)
    (hrows : ∀ row ∈ rows, Row.Conforms row types)
    (hheld : ∀ i, i < rows.length → (Slot.before f rows i s₀).HoldsAs types s₀
      (rowsBetween rows (f.windowBefore i).1 (f.windowBefore i).2)) :
    Slot.before f rows (j + 1) s₀ = s₀.plus (rowsBetween rows (f.window j).1 (f.window j).2) := by
  have hempty : s₀.HoldsAs types s₀ [] := hheld 0 (Nat.zero_lt_of_lt hj)
  subst hs₀
  exact Slot.before_succ_eq_plus (hheld j hj) hempty rfl
    ((Accumulator.isSum_setWindowSize _).mpr hsum) hrows (h.fedNoFloat hlength)

/-- **Sums that slide.** For every accepted ROWS group whose frame loses rows, every two partitions
of equally many conforming rows and every call of SUM or AVG: let `j` be a row to whose frame no
float passes over from the frame of the row before. Then the value for row `j` is the one that a
new function has after it has taken in the rows of its frame, in their order; and the value for
every row `i` from there on is the same for both partitions, if they agree on the rows in the frames
of the rows from `j` to `i`. So of the rows that have left the frame, none has an influence that
had left it before row `j`. -/
theorem values_of_sliding_sums {position : Nat} {store store' : RowStore}
    (hcheck : g.check position types (Registry.builtin : Registry σ) = .ok ())
    (hmode : g.mode = .row) (hshape : FrameShape.ofBounds g.unit g.lower g.upper = .ok shape)
    (hretracts : shape.retracts = true)
    (hrows : ∀ row ∈ rows, Row.Conforms row types)
    (hrows' : ∀ row ∈ rows', Row.Conforms row types) (hlength : rows.length = rows'.length)
    (hstore : store.Holds rows) (hstore' : store'.Holds rows') :
    ∃ lower upper values values',
      g.lower.LiesAt lower ∧ g.upper.LiesAt upper ∧
      g.values (Registry.builtin : Registry σ) store = .ok values ∧
      g.values (Registry.builtin : Registry σ) store' = .ok values' ∧
      ∀ (j k : Nat) (c : Call) (a : Accumulator σ), j < rows.length → g.calls[k]? = some c →
        c.function Registry.builtin = .ok a → (a.name = "SUM" ∨ a.name = "AVG") →
        NoFloatPassesOver c lower upper rows j →
        (∃ fed : List Value,
          (RowDistance.rowsWithin lower upper j rows).map (Slot.feed c.value?) =
            fed.map Except.ok ∧
          (values[j]?.bind fun v => v[k]?) =
            some ((a.setWindowSize rows.length).accumulateAll fed).result) ∧
        ∀ i, j ≤ i → i < rows.length →
          (∀ m p, j ≤ m → m ≤ i → RowDistance.isWithin lower upper m p → rows[p]? = rows'[p]?) →
          ∃ x, (values[i]?.bind fun v => v[k]?) = some x ∧
            (values'[i]?.bind fun v => v[k]?) = some x := by
  obtain ⟨-, -, hframed⟩ := accepted_of_check hcheck
  obtain ⟨shape', h⟩ := hframed (by rw [hmode]; nofun)
  obtain rfl : shape' = shape := Except.ok.inj (h.shape_eq.symm.trans hshape)
  obtain ⟨f₀, hlower, hupper, hslid⟩ := exists_values_slid hmode h hretracts
  obtain ⟨values, hvalues, hslots⟩ := hslid rows store _ rfl hrows hstore
  obtain ⟨values', hvalues', hslots'⟩ := hslid rows' store' _ rfl hrows' hstore'
  refine ⟨f₀.lower, f₀.upper, values, values', hlower, hupper, hvalues, hvalues', ?_⟩
  intro j k c a hj hc ha hname hnone
  rw [← hlength] at hslots'
  have hsum := Accumulator.isSum_of_name (Call.isNew_of_function ha).1.1 hname
  -- both runs slide through the same windows, from the same slot on
  let f := f₀.prepare rows.length
  let s₀ := startSlot c a rows.length
  have hheld (i : Nat) (hi : i < rows.length) := (hslots i k c a s₀ hi hc ha rfl).2
  have hheld' (i : Nat) (hi : i < rows.length) := (hslots' i k c a s₀ hi hc ha rfl).2
  have hfresh : Slot.before f rows (j + 1) s₀ =
      s₀.plus (rowsBetween rows (f.window j).1 (f.window j).2) :=
    NoFloatPassesOver.before_succ hnone rfl hj hsum rfl hrows hheld
  have hwindow (m p : Nat) (hlo : (f.window m).1 ≤ p) (hhi : p < (f.window m).2) :
      RowDistance.isWithin f₀.lower f₀.upper m p :=
    (@RowDistance.mem_window_iff _ f m p
      (Nat.lt_of_lt_of_le hhi (RowDistance.window_snd_le f m))).mpr ⟨hlo, hhi⟩
  refine ⟨?_, fun i hji hi hagree => ?_⟩
  · have hempty : s₀.HoldsAs types s₀ [] := hheld 0 (Nat.zero_lt_of_lt hj)
    obtain ⟨type, -, htype, -⟩ := hempty.holds
    have hconforms : ∀ row ∈ rowsBetween rows (f.window j).1 (f.window j).2,
        Row.Conforms row types := fun row hrow => hrows row (mem_of_mem_rowsBetween hrow)
    refine ⟨s₀.fed (rowsBetween rows (f.window j).1 (f.window j).2), ?_, ?_⟩
    · rw [show RowDistance.rowsWithin f₀.lower f₀.upper j rows = _ from
        @RowDistance.rowsWithin_eq _ f rows rfl j]
      exact Slot.map_feed_eq htype hconforms
    · rw [(hslots j k c a s₀ hj hc ha rfl).1]
      show some (Slot.before f rows (j + 1) s₀).accumulator.result = _
      rw [hfresh, Slot.plus_eq_holding htype hconforms]
      rfl
  · have hsame : ∀ m, j ≤ m → m ≤ i → ∀ p, (f.window m).1 ≤ p → p < (f.window m).2 →
        rows[p]? = rows'[p]? :=
      fun m hjm hmi p hlo hhi => hagree m p hjm hmi (hwindow m p hlo hhi)
    have hnone' : NoFloatPassesOver c f.lower f.upper rows' j := by
      intro m p row v hjm hbefore hin hp
      rw [← hagree j p (Nat.le_refl j) hji hin] at hp
      exact hnone m p row v hjm hbefore hin hp
    have hfresh' := hnone'.before_succ (show f.length = rows'.length from hlength)
      (hlength ▸ hj) hsum (congrArg _ hlength) hrows' (hlength ▸ hheld')
    have hequal : Slot.before f rows (i + 1) s₀ = Slot.before f rows' (i + 1) s₀ := by
      refine Slot.before_congr ?_ hji hsame
      rw [hfresh, hfresh', rowsBetween_congr (hsame j (Nat.le_refl j) hji)]
    refine ⟨_, (hslots i k c a s₀ hi hc ha rfl).1, ?_⟩
    rw [(hslots' i k c a s₀ hi hc ha rfl).1]
    exact congrArg (fun s : Slot σ => some s.accumulator.result) hequal.symm

/-- `SUM($1) OVER (ORDER BY $0 ASC ROWS BETWEEN 1 PRECEDING AND CURRENT ROW)`. -/
def sumOfTwo : WindowGroup :=
  { partition := [], sort := [⟨0, true⟩], unit := .rows, lower := .preceding 1,
    upper := .currentRow, calls := [.onField "SUM" 1] }

/-- A float, NULL, and two and three. -/
def gapBehind (x : Double) : List Row :=
  [[.integer 1, .float x], [.integer 2, .unknown], [.integer 3, .float (Double.ofInt 2)],
    [.integer 4, .float (Double.ofInt 3)]]

/-- A float, and behind it two ones. -/
def onesBehind (x : Double) : List Row :=
  [[.integer 1, .float x], [.integer 2, .float (Double.ofInt 1)],
    [.integer 3, .float (Double.ofInt 1)]]

/-- Behind a gap the value for the last row is the same, whether a NaN has come first or a zero. -/
theorem values_of_sliding_sums_gap :
    ∃ values values' x,
      sumOfTwo.values (Registry.builtin : Registry Empty)
        { options := {}, rows := (gapBehind Double.nan).toArray } = .ok values ∧
      sumOfTwo.values (Registry.builtin : Registry Empty)
        { options := {}, rows := (gapBehind (Double.zero false)).toArray } = .ok values' ∧
      (values[3]?.bind fun v => v[0]?) = some x ∧ (values'[3]?.bind fun v => v[0]?) = some x := by
  obtain ⟨lower, upper, values, values', hlower, hupper, hvalues, hvalues', h⟩ :=
    @values_of_sliding_sums Empty [.integer, .float] (gapBehind Double.nan)
      (gapBehind (Double.zero false)) sumOfTwo .sliding 0
      { options := {}, rows := (gapBehind Double.nan).toArray }
      { options := {}, rows := (gapBehind (Double.zero false)).toArray } rfl rfl rfl rfl
      (by decide) (by decide) rfl (RowStore.holds_of_spill_eq_none rfl rfl)
      (RowStore.holds_of_spill_eq_none rfl rfl)
  obtain rfl := hlower.unique (.preceding (by decide))
  obtain rfl := hupper.unique .currentRow
  have hone : (-1 : Int64).toInt = -1 := by decide
  -- the frame of row 2 shares row 1 with the one before, and there the call is fed NULL
  have hgap : NoFloatPassesOver (.onField "SUM" 1) (some (-1)) (some 0)
      (gapBehind Double.nan) 2 := by
    intro i p row v hi hbefore hin hp hv
    obtain rfl : i = 1 := by omega
    obtain rfl : p = 1 := by
      simp only [RowDistance.isWithin, Option.all_some, Bool.and_eq_true, decide_eq_true_eq, hone,
        Int64.toInt_zero] at hbefore hin
      omega
    cases hp
    cases hv
    rfl
  have hagree : ∀ m p, 2 ≤ m → m ≤ 3 →
      RowDistance.isWithin (some (-1)) (some 0) m p →
      (gapBehind Double.nan)[p]? = (gapBehind (Double.zero false))[p]? := by
    intro m p hm _ hp
    cases p with
    | zero =>
      simp only [RowDistance.isWithin, Option.all_some, Bool.and_eq_true, decide_eq_true_eq, hone,
        Int64.toInt_zero] at hp
      omega
    | succ p => rfl
  obtain ⟨x, hx, hx'⟩ :=
    (h 2 0 _ (.sum {}) (by decide) rfl rfl (.inl rfl) hgap).2 3 (by decide) (by decide) hagree
  exact ⟨values, values', x, hvalues, hvalues', hx, hx'⟩

/-- **What has left a frame may still count.** The frame of the last row has two ones, whatever
comes before them, and yet their sum is NaN behind a NaN, and one behind a number so great that a
one is lost when it is added. -/
theorem values_behind_departed_floats :
    sumOfTwo.check 0 [.integer, .float] (Registry.builtin : Registry Empty) = .ok () ∧
      FrameShape.ofBounds sumOfTwo.unit sumOfTwo.lower sumOfTwo.upper = .ok .sliding ∧
      (∀ x ∈ [Double.zero false, Double.nan, Double.ofInt 9007199254740992],
        (∀ row ∈ onesBehind x, Row.Conforms row [.integer, .float]) ∧
        RowDistance.rowsWithin (some (-1)) (some 0) 2 (onesBehind x) =
          [[.integer 2, .float (Double.ofInt 1)], [.integer 3, .float (Double.ofInt 1)]]) ∧
      [Double.zero false, Double.nan, Double.ofInt 9007199254740992].map (fun x =>
        (sumOfTwo.values (Registry.builtin : Registry Empty)
          { options := {}, rows := (onesBehind x).toArray }).map fun values => values[2]?) =
        [.ok (some [.float (Double.ofInt 2)]), .ok (some [.float Double.nan]),
          .ok (some [.float (Double.ofInt 1)])] := by
  refine ⟨rfl, rfl, by decide +kernel, by decide +kernel⟩

end WindowGroup

end SqlWindow
