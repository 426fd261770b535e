import SqlWindow.Frame.KeyDistance
import SqlWindow.Proofs.Frame.Held

set_option autoImplicit false

/-! # Windows by key distance

A frame between two edges walks each of them forward over the rows: the lower one past rows that
it does not admit, the upper one past rows that it admits. This succeeds on every partition on
whose rows the edges can be evaluated, sorted or not. Where the edges keep to the order of the
rows (`Edge.Ordered`), the window of a row is exactly what both edges admit.
-/

namespace SqlWindow

/-! ## Edges along a partition -/

namespace Edge

variable {e lower upper : Edge} {rows : List Row} {i j : Nat}

/-- Seen from row `i`, the edge admits row `j`. -/
def Admits (e : Edge) (rows : List Row) (i j : Nat) : Prop :=
  ∃ current candidate, rows[i]? = some current ∧ rows[j]? = some candidate ∧
    e.admits current candidate = .ok true

/-- The edge can be evaluated between any two rows. -/
def Total (e : Edge) (rows : List Row) : Prop :=
  ∀ current ∈ rows, ∀ candidate ∈ rows, ∃ b, e.admits current candidate = .ok b

/-- What the lower edge admits it admits further on in the partition and for earlier rows; what
the upper edge admits it admits further back and for later rows. -/
structure Ordered (lower upper : Edge) (rows : List Row) : Prop where
  lower : ∀ {i i' j j'}, i ≤ i' → j ≤ j' → j' < rows.length → lower.Admits rows i' j →
    lower.Admits rows i j'
  upper : ∀ {i i' j j'}, i ≤ i' → j ≤ j' → i' < rows.length → upper.Admits rows i j' →
    upper.Admits rows i' j

theorem admits_iff {current candidate : Row} (hi : rows[i]? = some current)
    (hj : rows[j]? = some candidate) :
    e.Admits rows i j ↔ e.admits current candidate = .ok true := by
  constructor
  · rintro ⟨current', candidate', hi', hj', h⟩
    rw [hi] at hi'
    rw [hj] at hj'
    rwa [Option.some.inj hi', Option.some.inj hj']
  · intro h
    exact ⟨current, candidate, hi, hj, h⟩

end Edge

namespace KeyDistance

variable {η : Type} {rows : List Row} {f f₀ : KeyDistance η} {current : Row} {i : Nat}

/-! ## Walking the edges -/

/-- The lower edge walks to the first row from its place on that it admits, or to the end. -/
theorem exists_seekLower (hi : rows[i]? = some current) (htotal : f.lower.Total rows) (steps : Nat)
    (hsteps : f.lo + steps = rows.length) :
    ∃ lo, Reads rows (seekLower current steps) f () { f with lo } ∧ f.lo ≤ lo ∧ lo ≤ rows.length ∧
      (∀ j, f.lo ≤ j → j < lo → ¬f.lower.Admits rows i j) ∧
      (lo < rows.length → f.lower.Admits rows i lo) := by
  induction steps generalizing f with
  | zero => exact ⟨f.lo, .pure () f, Nat.le_refl _, by omega, fun j _ _ => by omega, by omega⟩
  | succ steps ih =>
    have hrow : rows[f.lo]? = some rows[f.lo] := List.getElem?_eq_getElem (by omega)
    obtain ⟨b, hb⟩ := htotal current (List.mem_of_getElem? hi) _ (List.mem_of_getElem? hrow)
    cases b with
    | true =>
      refine ⟨f.lo, ?_, Nat.le_refl _, by omega, fun j _ _ => by omega, fun _ => ?_⟩
      · exact .get fun s _ => .bind (.row hrow) (.bind (.ofExcept hb) (.pure () f))
      · exact (Edge.admits_iff hi hrow).mpr hb
    | false =>
      -- not admitted: the edge moves on, and what is left behind stays behind
      obtain ⟨lo, hread, hle, hlo, hbehind, hat⟩ :=
        @ih { f with lo := f.lo + 1 } htotal (by show f.lo + 1 + steps = _; omega)
      have hle : f.lo + 1 ≤ lo := hle
      refine ⟨lo, ?_, by omega, hlo, fun j hj hjlo hadmits => ?_, hat⟩
      · exact .get fun s _ => .bind (.row hrow) (.bind (.ofExcept hb)
          (.bind (.modify fun _ => rfl) hread))
      · rcases Nat.eq_or_lt_of_le hj with rfl | hlt
        · rw [Edge.admits_iff hi hrow, hb] at hadmits
          cases hadmits
        · exact hbehind j hlt hjlo hadmits

/-- The upper edge walks past all rows from its place on that it admits. -/
theorem exists_seekUpper (hi : rows[i]? = some current) (htotal : f.upper.Total rows) (steps : Nat)
    (hsteps : f.hi + steps = rows.length) :
    ∃ hi, Reads rows (seekUpper current steps) f () { f with hi } ∧ f.hi ≤ hi ∧ hi ≤ rows.length ∧
      (∀ j, f.hi ≤ j → j < hi → f.upper.Admits rows i j) ∧
      (hi < rows.length → ¬f.upper.Admits rows i hi) := by
  induction steps generalizing f with
  | zero => exact ⟨f.hi, .pure () f, Nat.le_refl _, by omega, fun j _ _ => by omega, by omega⟩
  | succ steps ih =>
    have hrow : rows[f.hi]? = some rows[f.hi] := List.getElem?_eq_getElem (by omega)
    obtain ⟨b, hb⟩ := htotal current (List.mem_of_getElem? hi) _ (List.mem_of_getElem? hrow)
    cases b with
    | false =>
      refine ⟨f.hi, ?_, Nat.le_refl _, by omega, fun j _ _ => by omega, fun _ hadmits => ?_⟩
      · exact .get fun s _ => .bind (.row hrow) (.bind (.ofExcept hb) (.pure () f))
      · rw [Edge.admits_iff hi hrow, hb] at hadmits
        cases hadmits
    | true =>
      -- admitted: the edge walks past it
      obtain ⟨hi', hread, hle, hlast, hbehind, hat⟩ :=
        @ih { f with hi := f.hi + 1 } htotal (by show f.hi + 1 + steps = _; omega)
      have hle : f.hi + 1 ≤ hi' := hle
      refine ⟨hi', ?_, by omega, hlast, fun j hj hjhi => ?_, hat⟩
      · exact .get fun s _ => .bind (.row hrow) (.bind (.ofExcept hb)
          (.bind (.modify fun _ => rfl) hread))
      · rcases Nat.eq_or_lt_of_le hj with rfl | hlt
        · exact (Edge.admits_iff hi hrow).mpr hb
        · exact hbehind j hlt hjhi

/-! ## Sliding from row to row -/

variable {canRemove : Prop} {H : Nat → Nat → η → Prop}

/-- The edges have come to `lo` and `hi` for row `i`: where they keep to the order of the rows,
they have left no row behind that belongs on the other side, now or later. -/
def Behind (f₀ : KeyDistance η) (rows : List Row) (i lo hi : Nat) : Prop :=
  Edge.Ordered f₀.lower f₀.upper rows → ∀ i', i ≤ i' → i' < rows.length →
    (∀ j, j < lo → ¬f₀.lower.Admits rows i' j) ∧ ∀ j, j < hi → f₀.upper.Admits rows i' j

/-- The prepared frame `f₀` has come to row `i`. -/
def Reached (H : Nat → Nat → η → Prop) (rows : List Row) (f₀ : KeyDistance η) (i : Nat)
    (f : KeyDistance η) : Prop :=
  ∃ held lo hi, f = { f₀ with held, lo, hi } ∧ held.Holds H lo (max lo hi) ∧
    lo ≤ rows.length ∧ hi ≤ rows.length ∧ Behind f₀ rows i lo hi

theorem reached_zero (hlo : f₀.lo = 0) (hhi : f₀.hi = 0) (h : f₀.held.Holds H 0 0) :
    Reached H rows f₀ 0 f₀ := by
  refine ⟨f₀.held, 0, 0, ?_, h, Nat.zero_le _, Nat.zero_le _, fun _ _ _ _ => ⟨?_, ?_⟩⟩
  · cases f₀
    cases hlo
    cases hhi
    rfl
  · exact fun j hj => nomatch hj
  · exact fun j hj => nomatch hj

theorem reads_onHeld {x : Action (Held η × RowStore) Unit} {h : Held η}
    (hx : Reads rows x f.held () h) : Reads rows (onHeld x) f () { f with held := h } :=
  @Reads.onPart _ _ _ _ f () held (fun f h => { f with held := h }) x h hx

/-- Rows from `lo` up to but without `hi` are what both edges admit for row `i`. -/
def IsWindow (f₀ : KeyDistance η) (rows : List Row) (i lo hi : Nat) : Prop :=
  ∀ j, j < rows.length →
    (lo ≤ j ∧ j < max lo hi ↔ f₀.lower.Admits rows i j ∧ f₀.upper.Admits rows i j)

/-- Edges that have walked on for row `i` enclose its window, and stay right for later rows. -/
theorem window_of_seek {lo hi lo' hi' : Nat} (hrow : i < rows.length)
    (hbehind : Behind f₀ rows i lo hi)
    (hlower : ∀ j, lo ≤ j → j < lo' → ¬f₀.lower.Admits rows i j)
    (hlo : lo' < rows.length → f₀.lower.Admits rows i lo')
    (hupper : ∀ j, hi ≤ j → j < hi' → f₀.upper.Admits rows i j)
    (hhi : hi' < rows.length → ¬f₀.upper.Admits rows i hi') :
    Behind f₀ rows (i + 1) lo' hi' ∧
      (Edge.Ordered f₀.lower f₀.upper rows → IsWindow f₀ rows i lo' hi') := by
  -- What was left behind for earlier rows and on this walk is right for row `i`.
  have hat (hordered : Edge.Ordered f₀.lower f₀.upper rows) :
      (∀ j, j < lo' → ¬f₀.lower.Admits rows i j) ∧ ∀ j, j < hi' → f₀.upper.Admits rows i j := by
    obtain ⟨hl, hu⟩ := hbehind hordered i (Nat.le_refl i) hrow
    refine ⟨fun j hj => ?_, fun j hj => ?_⟩
    · rcases Nat.lt_or_ge j lo with hlt | hge
      · exact hl j hlt
      · exact hlower j hge hj
    · rcases Nat.lt_or_ge j hi with hlt | hge
      · exact hu j hlt
      · exact hupper j hge hj
  refine ⟨fun hordered i' hi' hrow' => ⟨fun j hj hadmits => ?_, fun j hj => ?_⟩,
    fun hordered j hj => ⟨fun ⟨hloj, hjhi⟩ => ⟨?_, ?_⟩, fun ⟨hl, hu⟩ => ⟨?_, ?_⟩⟩⟩
  -- Later rows: their lower edge is no further back, their upper edge no less far on.
  · obtain ⟨_, candidate, _, hcandidate, _⟩ := id hadmits
    have hlength := (List.getElem?_eq_some_iff.mp hcandidate).1
    exact (hat hordered).1 j hj
      (hordered.lower (Nat.le_of_succ_le hi') (Nat.le_refl j) hlength hadmits)
  · exact hordered.upper (Nat.le_of_succ_le hi') (Nat.le_refl j) hrow' ((hat hordered).2 j hj)
  -- The window: behind the first row that the lower edge admits it admits all.
  · exact hordered.lower (Nat.le_refl i) hloj hj (hlo (by omega))
  · exact (hat hordered).2 j (by omega)
  · exact Nat.le_of_not_lt fun hlt => (hat hordered).1 j hlt hl
  · have hlt : j < hi' := Nat.lt_of_not_le fun hle =>
      hhi (by omega) (hordered.upper (Nat.le_refl i) hle hrow hu)
    omega

/-- The frame has its window for row `i`: each edge stands where it stops for this row, and the run
that is held lies between them. -/
structure Settled (rows : List Row) (i : Nat) (f : KeyDistance η) : Prop where
  start : f.held.start = f.lo
  stop : f.held.stop = max f.lo f.hi
  lo_le : f.lo ≤ rows.length
  hi_le : f.hi ≤ rows.length
  lower : f.lo < rows.length → f.lower.Admits rows i f.lo
  upper : f.hi < rows.length → ¬f.upper.Admits rows i f.hi

/-- **One row.** The values for row `i` are those of a tally that holds the rows between two
positions, at which the frame has settled; where the edges keep to the order of the rows, these are
the rows that both edges admit. -/
theorem exists_process [Tally η] (hH : Tally.Follows rows canRemove H)
    (hlength : f₀.length = rows.length) (hlower : f₀.lower.Total rows)
    (hupper : f₀.upper.Total rows)
    (hcan : (∀ i j, i < rows.length → j < rows.length → f₀.lower.Admits rows i j) ∨ canRemove)
    (hf : Reached H rows f₀ i f) (hrow : rows[i]? = some current) :
    ∃ g, Reads rows (process current) f (Tally.values g.held.tally) g ∧
      H g.lo (max g.lo g.hi) g.held.tally ∧ Settled rows i g ∧
      (Edge.Ordered f₀.lower f₀.upper rows → IsWindow f₀ rows i g.lo g.hi) ∧
      Reached H rows f₀ (i + 1) g := by
  obtain ⟨h, lo, hi, rfl, hh, hlo, hhi, hbehind⟩ := hf
  have hilt : i < rows.length := (List.getElem?_eq_some_iff.mp hrow).1
  -- First both edges walk on, each from where it stood for the row before; then the tally slides.
  obtain ⟨lo', hseekLower, hlole, hlo', hnot, hatLower⟩ :=
    @exists_seekLower _ _ { f₀ with held := h, lo, hi } _ _ hrow hlower (f₀.length - lo)
      (by show lo + (f₀.length - lo) = _; omega)
  obtain ⟨hi', hseekUpper, hhile, hhi', hadmits, hatUpper⟩ :=
    @exists_seekUpper _ _ { f₀ with held := h, lo := lo', hi } _ _ hrow hupper (f₀.length - hi)
      (by show hi + (f₀.length - hi) = _; omega)
  obtain ⟨hbehind', hwindow⟩ := window_of_seek hilt hbehind hnot hatLower hadmits hatUpper
  have hlole : lo ≤ lo' := hlole
  have hhile : hi ≤ hi' := hhile
  -- An edge that admits all rows stays where it is.
  have hfixed : lo' = lo ∨ canRemove := hcan.imp_left fun hall => by
    rcases Nat.eq_or_lt_of_le hlole with heq | hlt
    · exact heq.symm
    · exact absurd (hall i lo hilt (by omega)) (hnot lo (Nat.le_refl lo) hlt)
  obtain ⟨h', hslide, hh'⟩ := Held.exists_slide hH hh hfixed hlole
    (show max lo hi ≤ max lo' hi' by omega) (Nat.le_max_left _ _) (by omega)
  refine ⟨{ f₀ with held := h', lo := lo', hi := hi' }, ?_, hh'.tally,
    ⟨hh'.start, hh'.stop, hlo', hhi', hatLower, hatUpper⟩, hwindow, h', lo', hi', rfl, hh', hlo',
    hhi', hbehind'⟩
  exact .get fun s _ => .bind hseekLower (.bind hseekUpper (.get fun s _ =>
    .bind (reads_onHeld hslide) (.get fun s _ => .pure _ _)))

/-- **The same row again.** A frame that has settled for a row answers this row with the values it
has, and stays as it is. -/
theorem Settled.reads_process [Tally η] (h : Settled rows i f) (hlength : f.length = rows.length)
    (hlower : f.lower.Total rows) (hupper : f.upper.Total rows) (hrow : rows[i]? = some current) :
    Reads rows (process current) f (Tally.values f.held.tally) f := by
  have hlo := h.lo_le
  have hhi := h.hi_le
  -- Neither edge walks on, so the slide is to where the run is.
  obtain ⟨lo, hseekLower, hlole, hlast, hnot, -⟩ :=
    exists_seekLower hrow hlower (f.length - f.lo) (by omega)
  obtain rfl : lo = f.lo := by
    rcases Nat.eq_or_lt_of_le hlole with heq | hlt
    · exact heq.symm
    · exact absurd (h.lower (by omega)) (hnot f.lo (Nat.le_refl _) hlt)
  obtain ⟨hi, hseekUpper, hhile, hlast', hadmits, -⟩ :=
    exists_seekUpper hrow hupper (f.length - f.hi) (by omega)
  obtain rfl : hi = f.hi := by
    rcases Nat.eq_or_lt_of_le hhile with heq | hlt
    · exact heq.symm
    · exact absurd (hadmits f.hi (Nat.le_refl _) hlt) (h.upper (by omega))
  have hslide : Reads rows (Held.slide f.lo (max f.lo f.hi)) f.held () f.held := by
    rw [← h.stop, ← h.start]
    exact Held.reads_slide_self (by rw [h.start, h.stop]; exact Nat.le_max_left _ _)
  exact .get fun s _ => .bind hseekLower (.bind hseekUpper (.get fun s _ =>
    .bind (reads_onHeld hslide) (.get fun s _ => .pure _ _)))

end KeyDistance

end SqlWindow
