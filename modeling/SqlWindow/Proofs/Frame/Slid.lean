import SqlWindow.Proofs.Frame.Evaluates

set_option autoImplicit false

/-! # Tallies that have slid

What a tally holds says what it answers only as far as taking a value back undoes taking it in.
Where it does not, one has to know the way that the tally has come: `Slot.before f rows i` is what
a slot has become before row `i`, window by window, and this is where the frame by row distance
brings it.
-/

namespace SqlWindow

variable {σ : Type} {types : List DataType} {rows rows' : List Row}

/-! ## Slots -/

namespace Slot

/-- The slot after rows have come in, one by one. -/
def plus (rows : List Row) (s : Slot σ) : Slot σ :=
  rows.foldl (fun s row => ((add row).outcome s).2) s

/-- The slot after rows have gone out, one by one. -/
def minus (rows : List Row) (s : Slot σ) : Slot σ :=
  rows.foldl (fun s row => ((remove row).outcome s).2) s

/-- The slot after a slide from an old window to a new one. Where they have no row in common it
starts anew. -/
def slid (rows : List Row) (old new : Nat × Nat) (s : Slot σ) : Slot σ :=
  if old.2 ≤ new.1 then
    plus (rowsBetween rows new.1 new.2)
      (if old.1 < old.2 then { s with accumulator := s.accumulator.reset } else s)
  else plus (rowsBetween rows old.2 new.2) (minus (rowsBetween rows old.1 new.1) s)

/-- The slot before row `i`, when the frame has slid to the windows of all rows in front of it. -/
def before (f : RowDistance (CallTally σ)) (rows : List Row) : (i : Nat) → Slot σ → Slot σ
  | 0, s => s
  | i + 1, s => (before f rows i s).slid rows (f.windowBefore i) (f.window i)

variable {s : Slot σ} {held : List Row}

theorem plus_append (xs ys : List Row) (s : Slot σ) : s.plus (xs ++ ys) = (s.plus xs).plus ys :=
  List.foldl_append

theorem plus_concat (rows : List Row) (row : Row) (s : Slot σ) :
    s.plus (rows ++ [row]) = ((add row).outcome (s.plus rows)).2 :=
  List.foldl_append

theorem minus_concat (rows : List Row) (row : Row) (s : Slot σ) :
    s.minus (rows ++ [row]) = ((remove row).outcome (s.minus rows)).2 :=
  List.foldl_append

/-- A slide reads the rows of the two windows and no others. -/
theorem slid_congr {old new : Nat × Nat} (hold : ∀ p, old.1 ≤ p → p < old.2 → rows[p]? = rows'[p]?)
    (hnew : ∀ p, new.1 ≤ p → p < new.2 → rows[p]? = rows'[p]?) (s : Slot σ) :
    s.slid rows old new = s.slid rows' old new := by
  unfold slid
  by_cases happart : old.2 ≤ new.1
  · rw [if_pos happart, if_pos happart, rowsBetween_congr hnew]
  · rw [if_neg happart, if_neg happart,
      rowsBetween_congr fun p hp hlt => hnew p (by omega) hlt,
      rowsBetween_congr fun p hp hlt => hold p hp (by omega)]

/-- From row `j` on, two slots that are equal before it stay equal as long as the windows have the
same rows. -/
theorem before_congr {f : RowDistance (CallTally σ)} {i j : Nat} {s' : Slot σ}
    (h : before f rows (j + 1) s = before f rows' (j + 1) s') (hij : j ≤ i)
    (hrows : ∀ m, j ≤ m → m ≤ i → ∀ p, (f.window m).1 ≤ p → p < (f.window m).2 →
      rows[p]? = rows'[p]?) :
    before f rows (i + 1) s = before f rows' (i + 1) s' := by
  induction hij with
  | refl => exact h
  | @step i hij ih =>
    have hbefore := ih fun m hjm hmi => hrows m hjm (Nat.le_succ_of_le hmi)
    rw [before, hbefore, before]
    exact slid_congr (hrows i hij (Nat.le_succ i))
      (hrows (i + 1) (Nat.le_succ_of_le hij) (Nat.le_refl _)) _

end Slot

/-! ## Tallies -/

namespace CallTally

variable {fresh : CallTally σ}

/-- The tally with every slot changed. -/
def mapSlots (f : Slot σ → Slot σ) (t : CallTally σ) : CallTally σ := ⟨t.slots.map f⟩

theorem mapSlots_id (t : CallTally σ) : t.mapSlots (fun s => s) = t :=
  congrArg CallTally.mk (List.map_id' t.slots)

theorem mapSlots_mapSlots (f g : Slot σ → Slot σ) (t : CallTally σ) :
    (t.mapSlots f).mapSlots g = t.mapSlots fun s => g (f s) :=
  congrArg CallTally.mk List.map_map

/-- Rows go out slot by slot. -/
theorem IsFramed.givesBack_minus (h : fresh.IsFramed types)
    (hrows : ∀ row ∈ rows, Row.Conforms row types) (hcan : fresh.SupportsRetract)
    (t₀ : CallTally σ) (a₀ : Nat) :
    Tally.GivesBack rows fun a b t => HoldsBetween types fresh rows a b t ∧ a₀ ≤ a ∧
      t = t₀.mapSlots (Slot.minus (rowsBetween rows a₀ a)) := by
  rintro a b t row ⟨hholds, hle, rfl⟩ hlt hb hrow
  obtain ⟨u, hremove, hu⟩ := (h.follows hrows).remove hcan hholds hlt hb hrow
  refine ⟨u, hremove, hu, Nat.le_succ_of_le hle, (eq_of_onSlots_ok hremove).trans ?_⟩
  rw [rowsBetween_succ hle hrow]
  show CallTally.mk ((List.map _ _).map _) = CallTally.mk _
  rw [List.map_map]
  exact congrArg CallTally.mk (List.map_congr_left fun s _ => (Slot.minus_concat _ _ s).symm)

/-- Rows come in slot by slot. -/
theorem IsFramed.takesIn_plus (h : fresh.IsFramed types)
    (hrows : ∀ row ∈ rows, Row.Conforms row types) (t₀ : CallTally σ) (b₀ : Nat) :
    Tally.TakesIn rows fun a b t => HoldsBetween types fresh rows a b t ∧ b₀ ≤ b ∧
      t = t₀.mapSlots (Slot.plus (rowsBetween rows b₀ b)) := by
  rintro a b t row ⟨hholds, hle, rfl⟩ hab hrow
  obtain ⟨u, hadd, hu⟩ := (h.follows hrows).add hholds hab hrow
  refine ⟨u, hadd, hu, Nat.le_succ_of_le hle, (eq_of_onSlots_ok hadd).trans ?_⟩
  rw [rowsBetween_succ hle hrow]
  show CallTally.mk ((List.map _ _).map _) = CallTally.mk _
  rw [List.map_map]
  exact congrArg CallTally.mk (List.map_congr_left fun s _ => (Slot.plus_concat _ _ s).symm)

end CallTally

/-! ## Frames -/

namespace RowDistance

/-- The tally of the prepared frame `f` before row `i`. -/
def tallyBefore (f : RowDistance (CallTally σ)) (rows : List Row) (i : Nat) : CallTally σ :=
  f.held.tally.mapSlots (Slot.before f rows i)

variable {f : RowDistance (CallTally σ)} {fresh : CallTally σ}

theorem tallyBefore_succ (f : RowDistance (CallTally σ)) (rows : List Row) (i : Nat) :
    f.tallyBefore rows (i + 1) =
      (f.tallyBefore rows i).mapSlots (Slot.slid rows (f.windowBefore i) (f.window i)) := by
  rw [tallyBefore, tallyBefore, CallTally.mapSlots_mapSlots]
  rfl

theorem tally_restart {held : Held (CallTally σ)} {a b : Nat} (hstart : held.start = a)
    (hstop : held.stop = b) (lo : Nat) :
    (held.restart lo).tally = held.tally.mapSlots fun s =>
      if a < b then { s with accumulator := s.accumulator.reset } else s := by
  subst hstart hstop
  show (if held.start < held.stop then Tally.clear held.tally else held.tally) = _
  by_cases hsome : held.start < held.stop
  · simp only [if_pos hsome]
    rfl
  · simp only [if_neg hsome]
    exact (CallTally.mapSlots_id _).symm

/-- **One slide.** The tally that is known before a row is known behind it. -/
theorem slides_tallyBefore (h : fresh.IsFramed types)
    (hrows : ∀ row ∈ rows, Row.Conforms row types) (hcan : fresh.SupportsRetract)
    (hlength : f.length = rows.length) (i : Nat) :
    Slides rows (fun i a b t => CallTally.HoldsBetween types fresh rows a b t ∧
      t = f.tallyBefore rows i) f i := by
  intro held hheld
  obtain ⟨hholds, htally⟩ := hheld.tally
  have hlo := windowBefore_fst_le f i
  have hhi := windowBefore_snd_le f i
  have hle := window_le f i
  have hlast : (f.window i).2 ≤ rows.length := hlength ▸ window_snd_le f i
  have hplain : held.Holds (CallTally.HoldsBetween types fresh rows) (f.windowBefore i).1
      (f.windowBefore i).2 := ⟨hheld.start, hheld.stop, hheld.le, hholds⟩
  by_cases happart : (f.windowBefore i).2 ≤ (f.window i).1
  -- nothing is left of the old window
  · obtain ⟨held', hread, hheld'⟩ := Held.exists_slide_of hplain
      (.inr ((h.follows hrows).givesBack hcan))
      (h.takesIn_plus hrows (held.restart (f.window i).1).tally (f.window i).1)
      (fun _ => ⟨(Held.holds_restart (h.follows hrows) hplain _).tally, Nat.le_refl _, by
        rw [rowsBetween_self]; exact (CallTally.mapSlots_id _).symm⟩)
      (fun _ hlt => absurd happart (Nat.not_le.mpr hlt)) hlo hhi hle hlast
    refine ⟨held', hread, hheld'.start, hheld'.stop, hheld'.le, hheld'.tally.1, ?_⟩
    rw [hheld'.tally.2.2, tallyBefore_succ, ← htally, tally_restart hheld.start hheld.stop,
      CallTally.mapSlots_mapSlots]
    refine congrArg (CallTally.mapSlots · held.tally) (funext fun s => ?_)
    rw [Slot.slid, if_pos happart]
  -- first rows go out, then rows come in
  · have hout : held.Holds (fun a b t => CallTally.HoldsBetween types fresh rows a b t ∧
        (f.windowBefore i).1 ≤ a ∧
        t = held.tally.mapSlots (Slot.minus (rowsBetween rows (f.windowBefore i).1 a)))
        (f.windowBefore i).1 (f.windowBefore i).2 := by
      refine ⟨hheld.start, hheld.stop, hheld.le, hholds, Nat.le_refl _, ?_⟩
      rw [rowsBetween_self]
      exact (CallTally.mapSlots_id _).symm
    obtain ⟨held', hread, hheld'⟩ := Held.exists_slide_of hout
      (.inr (h.givesBack_minus hrows hcan held.tally (f.windowBefore i).1))
      (h.takesIn_plus hrows
        (held.tally.mapSlots (Slot.minus (rowsBetween rows (f.windowBefore i).1 (f.window i).1)))
        (f.windowBefore i).2)
      (fun happart' => absurd happart' happart)
      (fun t _ ht => ⟨ht.1, Nat.le_refl _, by
        rw [rowsBetween_self]; exact ht.2.2.trans (CallTally.mapSlots_id _).symm⟩)
      hlo hhi hle hlast
    refine ⟨held', hread, hheld'.start, hheld'.stop, hheld'.le, hheld'.tally.1, ?_⟩
    rw [hheld'.tally.2.2, tallyBefore_succ, ← htally, CallTally.mapSlots_mapSlots]
    refine congrArg (CallTally.mapSlots · held.tally) (funext fun s => ?_)
    rw [Slot.slid, if_neg happart]

end RowDistance

/-- **The frame by row distance** answers row `i` with the values of the tally that has slid up to
its window, and before each row the tally holds the window of the row before. -/
theorem Frame.exists_evaluates_slid {f₀ : RowDistance (CallTally σ)}
    (h : f₀.held.tally.IsFramed types) (hcan : f₀.held.tally.SupportsRetract)
    (hrows : ∀ row ∈ rows, Row.Conforms row types) {f : RowDistance (CallTally σ)}
    (hf : f = f₀.prepare rows.length) :
    ∃ v, Evaluates rows (rowDistance f₀) v ∧
      (∀ i, i < rows.length → v i = Tally.values (f.tallyBefore rows (i + 1))) ∧
      ∀ i, i ≤ rows.length → CallTally.HoldsBetween types f₀.held.tally rows (f.windowBefore i).1
        (f.windowBefore i).2 (f.tallyBefore rows i) := by
  subst hf
  have hstart := h.holds_start rows rows.length
  obtain ⟨v, hv, hall⟩ := exists_evaluates_rowDistance h
    ⟨hstart, (CallTally.mapSlots_id _).symm⟩
    fun i _ => RowDistance.slides_tallyBefore h hrows hcan rfl i
  refine ⟨v, hv, fun i hi => ?_, fun i hi => ?_⟩
  · obtain ⟨t, hvi, -, rfl⟩ := hall i hi
    exact hvi
  · cases i with
    | zero =>
      rw [RowDistance.tallyBefore]
      exact (CallTally.mapSlots_id _).symm ▸ hstart
    | succ i =>
      obtain ⟨t, -, hholds, rfl⟩ := hall i hi
      exact hholds

end SqlWindow
