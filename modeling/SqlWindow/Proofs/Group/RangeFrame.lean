import SqlWindow.Proofs.Group.RowsFrame

set_option autoImplicit false

/-! # RANGE frames

The frame of a RANGE group has, on a sorted partition, exactly the rows that both of its edges
admit. Its two cursors only move forward, so this needs the rows that the lower edge admits to
be a back part of the partition, those that the upper edge admits to be a front part, and both
parts to move on with the current row: `Edge.keepsOrder_of_isEven`.

Without an ordering all rows are peers, and the frame is the partition.
-/

namespace SqlWindow

variable {σ : Type} {types : List DataType} {rows : List Row} {sort : List SortKey}

/-! ## Bounds -/

/-- A literal distance is a whole number, and it counts along integers or along timestamps that
are no leap seconds. -/
def FrameBound.CountsEvenly (types : List DataType) (sort : List SortKey) (rows : List Row)
    (bound : FrameBound) : Prop :=
  ∀ d, bound.literal? = some d → ∃ k key rest, d = .integer k ∧ sort = key :: rest ∧
    (fieldType types key.index = .ok .integer ∨
      fieldType types key.index = .ok .timestamp ∧
        ∀ row ∈ rows, ∀ t, Row.field row key.index = .ok (.timestamp t) → t.IsOrdinary)

namespace EdgePlace

variable {bound : FrameBound} {place : EdgePlace}

theorem movesEvenly_value {key : SortKey} (hrows : ∀ row ∈ rows, Row.Conforms row types)
    (h : fieldType types key.index = .ok .integer ∨
      fieldType types key.index = .ok .timestamp ∧
        ∀ row ∈ rows, ∀ t, Row.field row key.index = .ok (.timestamp t) → t.IsOrdinary)
    {row : Row} (hrow : row ∈ rows) : (Row.value row key.index).MovesEvenly := by
  rcases h with htype | ⟨htype, hordinary⟩
  · obtain ⟨-, hconforms⟩ := (hrows row hrow).field_eq htype
    cases hv : Row.value row key.index <;> rw [hv] at hconforms <;>
      first | trivial | (rcases hconforms with h | h <;> cases h)
  · obtain ⟨hfield, hconforms⟩ := (hrows row hrow).field_eq htype
    cases hv : Row.value row key.index <;> rw [hv] at hconforms hfield <;>
      first
      | trivial
      | exact hordinary row hrow _ hfield
      | (rcases hconforms with h | h <;> cases h)

/-- The edge of an evenly counting bound is even. -/
theorem isEven_of_ofBound (h : ofBound bound sort = .ok place)
    (hrows : ∀ row ∈ rows, Row.Conforms row types) (hcounts : bound.CountsEvenly types sort rows) :
    place.IsEven sort rows := by
  cases bound with
  | currentRow =>
    cases h
    rfl
  | unboundedPreceding =>
    cases h
    trivial
  | unboundedFollowing =>
    cases h
    trivial
  | distance o =>
    cases o with
    | field index => cases h
    | literal d =>
      obtain ⟨k, key, rest, rfl, rfl, hkey⟩ := hcounts d rfl
      have hmoves := fun (row : Row) (hrow : row ∈ rows) => movesEvenly_value hrows hkey hrow
      simp only [ofBound] at h
      cases hascending : key.ascending with
      | true =>
        rw [hascending] at h
        cases h
        exact ⟨_, rest, rfl, rfl, hmoves⟩
      | false =>
        rw [hascending] at h
        cases h
        exact ⟨_, rest, rfl, rfl, hmoves⟩

end EdgePlace

namespace Edge

variable {lower upper : Edge} {current : Row} {i : Nat}

/-- A candidate row is let in, seen from the current row. -/
def letsIn (e : Edge) (current candidate : Row) : Bool :=
  match e.admits current candidate with
  | .ok b => b
  | .error _ => false

/-- The rows of a partition that both edges admit, seen from the current row. -/
def rowsAdmitted (lower upper : Edge) (current : Row) (rows : List Row) : List Row :=
  rows.filter fun candidate => lower.letsIn current candidate && upper.letsIn current candidate

theorem letsIn_iff {e : Edge} {candidate : Row} :
    e.letsIn current candidate = true ↔ e.admits current candidate = .ok true := by
  unfold letsIn
  cases e.admits current candidate with
  | ok b => exact (Except.ok.injEq b true).symm ▸ Iff.rfl
  | error e => exact ⟨nofun, nofun⟩

theorem rowsAdmitted_eq_rowsBetween {a b : Nat} (hi : rows[i]? = some current)
    (h : ∀ j, j < rows.length →
      (a ≤ j ∧ j < b ↔ lower.Admits rows i j ∧ upper.Admits rows i j)) :
    rowsAdmitted lower upper current rows = rowsBetween rows a b :=
  filter_eq_rowsBetween fun j candidate hj => by
    rw [Bool.and_eq_true, letsIn_iff, letsIn_iff, ← admits_iff hi hj, ← admits_iff hi hj]
    exact (h j (List.getElem?_eq_some_iff.mp hj).1).symm

theorem Admits.of_unbounded {side : Side} {rows : List Row} {i j : Nat} (hi : i < rows.length)
    (hj : j < rows.length) : (Edge.mk side .unbounded).Admits rows i j :=
  ⟨rows[i], rows[j], List.getElem?_eq_getElem hi, List.getElem?_eq_getElem hj, rfl⟩

end Edge

/-! ## Frames -/

/-- The rows `held` are those that two edges admit seen from row `i`, where the partition is sorted
and the edges are even. -/
def IsRangeFrame (sort : List SortKey) (lower upper : EdgePlace) (rows : List Row) (i : Nat)
    (held : List Row) : Prop :=
  Row.Sorted sort rows → lower.IsEven sort rows → upper.IsEven sort rows →
    ∀ current, rows[i]? = some current →
      held = Edge.rowsAdmitted ⟨.lower, lower⟩ ⟨.upper, upper⟩ current rows

/-- The whole partition is the frame between two edges that admit all rows. -/
theorem isRangeFrame_whole {lower upper : EdgePlace}
    (hlower : ∀ current ∈ rows, ∀ row ∈ rows, (Edge.mk .lower lower).letsIn current row = true)
    (hupper : ∀ current ∈ rows, ∀ row ∈ rows, (Edge.mk .upper upper).letsIn current row = true)
    (i : Nat) : IsRangeFrame sort lower upper rows i rows := by
  intro _ _ _ current hi
  have hcurrent := List.mem_of_getElem? hi
  refine (List.filter_eq_self.mpr fun row hrow => ?_).symm
  rw [hlower current hcurrent row hrow, hupper current hcurrent row hrow]
  rfl

theorem Frame.moves_keyDistance {fresh : CallTally σ} {lower upper : EdgePlace} {retracts : Prop}
    (h : fresh.IsFramed types) (hsort : Row.FieldsExist types sort) (hlower : lower.Fits types)
    (hupper : upper.Fits types) (hcan : lower = .unbounded ∨ retracts) :
    (keyDistance ⟨{ tally := fresh }, ⟨.lower, lower⟩, ⟨.upper, upper⟩, 0, 0, 0⟩).Moves types fresh
      retracts (IsRangeFrame sort lower upper) where
  renew_eq :=
    congrArg (fun t => keyDistance ⟨{ tally := t }, ⟨.lower, lower⟩, ⟨.upper, upper⟩, 0, 0, 0⟩)
      h.renew_eq
  tally_eq := rfl
  tracks rows hrows H hH hstart := by
    have hcan' : (∀ i j, i < rows.length → j < rows.length →
        (Edge.mk .lower lower).Admits rows i j) ∨ retracts := by
      rcases hcan with rfl | hcan
      · exact .inl fun _ _ hi hj => Edge.Admits.of_unbounded hi hj
      · exact .inr hcan
    obtain ⟨v, hv, hshows⟩ := tracks_keyDistance h
      (Edge.total_of_fits (e := ⟨.lower, lower⟩) hlower hrows)
      (Edge.total_of_fits (e := ⟨.upper, upper⟩) hupper hrows) hcan' H hH hstart
    refine ⟨v, hv, fun i hi => ?_⟩
    obtain ⟨t, a, b, hvalues, ht, lo, hi', hheld, hwindow⟩ := hshows i hi
    refine ⟨t, a, b, hvalues, ht, fun hsorted hlowerEven hupperEven current hcurrent => ?_⟩
    -- On a sorted partition the edges only move forward, so the frame lies between them.
    have hlowerOrder : (Edge.mk .lower lower).KeepsOrder rows :=
      Edge.keepsOrder_of_isEven hsorted hrows hsort hlowerEven
    have hupperOrder : (Edge.mk .upper upper).KeepsOrder rows :=
      Edge.keepsOrder_of_isEven hsorted hrows hsort hupperEven
    have hordered := Edge.ordered_of_keepsOrder hlowerOrder hupperOrder
    rw [hheld]
    exact (Edge.rowsAdmitted_eq_rowsBetween hcurrent (hwindow hordered)).symm

/-- **The frame of a RANGE group** is the whole partition when no end of it is bounded, and lies
between two edges otherwise; rows leave it then unless it starts with the partition. -/
theorem Frame.ofRange_cases (tally : CallTally σ) {lower upper : FrameBound} {l u : EdgePlace}
    {shape : FrameShape} (hshape : FrameShape.ofBounds .range lower upper = .ok shape)
    (hlower : EdgePlace.ofBound lower sort = .ok l)
    (hupper : EdgePlace.ofBound upper sort = .ok u) :
    l = .unbounded ∧ u = .unbounded ∧
        ofRange tally sort lower upper shape = .ok (whole { tally }) ∨
      (l = .unbounded ∨ shape.retracts = true) ∧ ofRange tally sort lower upper shape =
        .ok (keyDistance { held := { tally }, lower := ⟨.lower, l⟩, upper := ⟨.upper, u⟩ }) := by
  have hdistance : KeyDistance.ofBounds tally sort lower upper =
      .ok { held := { tally }, lower := ⟨.lower, l⟩, upper := ⟨.upper, u⟩ } := by
    rw [KeyDistance.ofBounds, Edge.ofBound, Edge.ofBound, hlower, hupper]
    rfl
  rcases FrameShape.cases_of_ofBounds hshape with
    ⟨rfl, rfl, rfl⟩ | ⟨rfl, rfl⟩ | ⟨-, -, -, hunit⟩ | hretracts
  · cases hlower
    cases hupper
    exact .inl ⟨rfl, rfl, rfl⟩
  · cases hlower
    refine .inr ⟨.inl rfl, ?_⟩
    simp only [ofRange, Answer.bind_of_ok hdistance]
    rfl
  · cases hunit
  · refine .inr ⟨.inr hretracts, ?_⟩
    cases shape <;> cases hretracts
    all_goals
      simp only [ofRange, Answer.bind_of_ok hdistance]
      rfl

/-- **The frame between two edges**, of whatever kind it is. -/
theorem Frame.exists_ofRange {fresh : CallTally σ} {lower upper : FrameBound} {l u : EdgePlace}
    {shape : FrameShape} (hshape : FrameShape.ofBounds .range lower upper = .ok shape)
    (hlower : EdgePlace.ofBound lower sort = .ok l) (hupper : EdgePlace.ofBound upper sort = .ok u)
    (hsort : Row.FieldsExist types sort) (hl : l.Fits types) (hu : u.Fits types)
    (h : fresh.IsFramed types) :
    ∃ f, ofRange fresh sort lower upper shape = .ok f ∧
      f.Moves types fresh (shape.retracts = true) (IsRangeFrame sort l u) := by
  rcases ofRange_cases fresh hshape hlower hupper with ⟨rfl, rfl, hf⟩ | ⟨hcan, hf⟩
  · refine ⟨_, hf, (moves_whole h).imp ?_⟩
    rintro rows - i held rfl
    exact isRangeFrame_whole (fun _ _ _ _ => rfl) (fun _ _ _ _ => rfl) i
  · exact ⟨_, hf, moves_keyDistance h hsort hl hu hcan⟩

/-! ## Groups -/

namespace WindowGroup

variable {g : WindowGroup} {shape : FrameShape}

/-- The literal distances of an accepted RANGE frame fit the first ordering field. -/
theorem distanceFits_of_checkRangeDistances (h : g.checkRangeDistances types = .ok ())
    {bound : FrameBound} (hbound : bound ∈ [g.lower, g.upper]) :
    EdgePlace.DistanceFits types g.sort bound := by
  intro d hd
  have hmem : d ∈ g.literalDistances := List.mem_filterMap.mpr ⟨bound, hbound, hd⟩
  unfold checkRangeDistances at h
  -- a literal distance makes the check look for the first ordering field
  rw [if_neg (by rw [List.isEmpty_iff]; exact List.ne_nil_of_mem hmem)] at h
  split at h
  · cases h
  · rename_i key rest hsort
    obtain ⟨type, htype, h⟩ := Answer.ok_of_bind_ok h
    refine ⟨key, rest, type, hsort, htype, ?_⟩
    cases hadditive : type.isAdditive with
    | false =>
      rw [hadditive] at h
      cases h
    | true =>
      rw [hadditive] at h
      have hfits := Answer.forM_eq_ok_iff.mp h d hmem
      by_cases hd : distanceFits type d = true
      · exact ⟨rfl, hd⟩
      · rw [if_neg hd] at hfits
        cases hfits

/-- The bounds of an accepted RANGE group have places that fit the types of the input fields. -/
theorem exists_places {registry : Registry σ} (hmode : g.mode = .range)
    (hfields : g.FieldsAccepted types) (h : g.FrameAccepted types registry shape) :
    ∃ lower upper, EdgePlace.ofBound g.lower g.sort = .ok lower ∧
      EdgePlace.ofBound g.upper g.sort = .ok upper ∧ lower.Fits types ∧ upper.Fits types := by
  have hdistances := h.rangeDistances hmode
  obtain ⟨lower, hlower, hl⟩ := EdgePlace.exists_ofBound h.lower hfields.sort
    (distanceFits_of_checkRangeDistances hdistances (by simp))
  obtain ⟨upper, hupper, hu⟩ := EdgePlace.exists_ofBound h.upper hfields.sort
    (distanceFits_of_checkRangeDistances hdistances (by simp))
  exact ⟨lower, upper, hlower, hupper, hl, hu⟩

/-- **The frame of a RANGE group** with an ordering. -/
theorem exists_hasFrame_of_mode_eq_range (hmode : g.mode = .range)
    (hfields : g.FieldsAccepted types)
    (h : g.FrameAccepted types (Registry.builtin : Registry σ) shape) :
    ∃ (f : Frame σ) (fresh : CallTally σ) (lower upper : EdgePlace),
      EdgePlace.ofBound g.lower g.sort = .ok lower ∧
      EdgePlace.ofBound g.upper g.sort = .ok upper ∧
      g.HasFrame types (shape.retracts = true) (IsRangeFrame g.sort lower upper) f fresh := by
  obtain ⟨lower, upper, hlower, hupper, hl, hu⟩ := exists_places hmode hfields h
  obtain ⟨fresh, htally, hframed, hcan⟩ := h.exists_tally
  have hshape := h.shape_eq
  rw [unit_eq_of_mode_eq_range hmode] at hshape
  obtain ⟨f, hf, hmoves⟩ := Frame.exists_ofRange hshape hlower hupper hfields.sort hl hu hframed
  refine ⟨f, fresh, lower, upper, hlower, hupper, ?_, htally, hframed,
    fun hretracts => hcan ⟨.inr hmode, hretracts⟩, hmoves, h.exists_accepted⟩
  rw [Frame.ofGroup, hmode]
  simp only [Answer.bind_of_ok htally, Answer.bind_of_ok h.shape_eq, Answer.bind_of_ok hf]
  rfl

theorem exists_framed_of_mode_eq_range (hmode : g.mode = .range) (hfields : g.FieldsAccepted types)
    (h : g.FrameAccepted types (Registry.builtin : Registry σ) shape) :
    ∃ (f : Frame σ) (fresh : CallTally σ) (lower upper : EdgePlace),
      EdgePlace.ofBound g.lower g.sort = .ok lower ∧
      EdgePlace.ofBound g.upper g.sort = .ok upper ∧
      g.Framed types (IsRangeFrame g.sort lower upper) f fresh := by
  obtain ⟨f, fresh, lower, upper, hlower, hupper, hframe⟩ :=
    exists_hasFrame_of_mode_eq_range hmode hfields h
  exact ⟨f, fresh, lower, upper, hlower, hupper, hframe.framed⟩

/-- **The frame of a group without an ordering.** -/
theorem exists_hasFrame_of_mode_eq_insensitive (hmode : g.mode = .insensitive)
    (h : g.FrameAccepted types (Registry.builtin : Registry σ) shape) :
    ∃ (f : Frame σ) (fresh : CallTally σ),
      g.HasFrame types False (fun rows _ held => held = rows) f fresh := by
  obtain ⟨fresh, htally, hframed, -⟩ := h.exists_tally
  refine ⟨_, fresh, ?_, htally, hframed, False.elim, Frame.moves_whole hframed, h.exists_accepted⟩
  rw [Frame.ofGroup, hmode]
  simp only [Answer.bind_of_ok htally]
  rfl

/-- Without an ordering every edge admits every row. -/
theorem exists_ofBound_nil {bound : FrameBound} (hbound : checkBound bound = .ok ())
    (hliteral : bound.literal? = none) : ∃ place, EdgePlace.ofBound bound [] = .ok place ∧
      ∀ side current row, (Edge.mk side place).letsIn current row = true := by
  cases bound with
  | currentRow => exact ⟨.peers [], rfl, fun side _ _ => by cases side <;> rfl⟩
  | unboundedPreceding => exact ⟨.unbounded, rfl, fun _ _ _ => rfl⟩
  | unboundedFollowing => exact ⟨.unbounded, rfl, fun _ _ _ => rfl⟩
  | distance o =>
    cases o with
    | field index => cases hbound
    | literal d => cases hliteral

/-- The frame of a RANGE group, with an ordering or without. -/
theorem exists_framed_of_unit_eq_range (hunit : g.unit = .range) (hmode : g.mode ≠ .offset)
    (hfields : g.FieldsAccepted types)
    (h : g.FrameAccepted types (Registry.builtin : Registry σ) shape)
    (hlower : g.sort = [] → g.lower.literal? = none)
    (hupper : g.sort = [] → g.upper.literal? = none) :
    ∃ (f : Frame σ) (fresh : CallTally σ) (lower upper : EdgePlace),
      EdgePlace.ofBound g.lower g.sort = .ok lower ∧
      EdgePlace.ofBound g.upper g.sort = .ok upper ∧
      g.Framed types (IsRangeFrame g.sort lower upper) f fresh := by
  cases hcase : g.mode with
  | offset => exact absurd hcase hmode
  | row =>
    rw [unit_eq_of_mode_eq_row hcase] at hunit
    cases hunit
  | range => exact exists_framed_of_mode_eq_range hcase hfields h
  | insensitive =>
    have hsort := sort_eq_nil_of_mode_eq_insensitive hcase
    obtain ⟨f, fresh, hframe⟩ := exists_hasFrame_of_mode_eq_insensitive hcase h
    obtain ⟨lower, hl, hlowerAll⟩ := exists_ofBound_nil h.lower (hlower hsort)
    obtain ⟨upper, hu, hupperAll⟩ := exists_ofBound_nil h.upper (hupper hsort)
    refine ⟨f, fresh, lower, upper, hsort ▸ hl, hsort ▸ hu, (hframe.imp ?_).framed⟩
    -- all rows are peers, and literal distances need an ordering
    rintro rows - i held rfl
    exact isRangeFrame_whole (fun _ _ _ _ => hlowerAll _ _ _) (fun _ _ _ _ => hupperAll _ _ _) i

/-! ## Values -/

/-- `MAX($0) OVER (ORDER BY $0 DESC RANGE BETWEEN 1 FOLLOWING AND 2 FOLLOWING)`. -/
def maxOfLater : WindowGroup :=
  { partition := [], sort := [⟨0, false⟩], unit := .range, lower := .following 1,
    upper := .following 2, calls := [.onField "MAX" 0] }

end WindowGroup

end SqlWindow
