import SqlWindow.Proofs.Group.Framed

set_option autoImplicit false

/-! # ROWS frames

A ROWS group is evaluated in one of four ways, as its bounds ask for. In each of them a row's
frame has exactly the rows within the two signed distances, wherever these point: ahead of the
row, behind it, past the ends of the partition, or in the wrong order.
-/

namespace SqlWindow

variable {σ : Type} {types : List DataType}

/-! ## Bounds -/

/-- An accepted bound with an integer distance lies somewhere. -/
theorem FrameBound.exists_liesAt {bound : FrameBound}
    (hbound : WindowGroup.checkBound bound = .ok ())
    (hinteger : ∀ v, bound.literal? = some v → ∃ k, v = .integer k) : ∃ d, bound.LiesAt d := by
  cases bound with
  | currentRow => exact ⟨_, .currentRow⟩
  | unboundedPreceding => exact ⟨_, .unboundedPreceding⟩
  | unboundedFollowing => exact ⟨_, .unboundedFollowing⟩
  | distance o =>
    cases o with
    | field index => cases hbound
    | literal v =>
      obtain ⟨k, rfl⟩ := hinteger v rfl
      exact ⟨_, .literal k⟩

namespace RowDistance

variable {i : Nat} {rows : List Row}

theorem rowsWithin_none_none (i : Nat) (rows : List Row) : rowsWithin none none i rows = rows := by
  have hwhole : rowsWithin none none i rows = rowsBetween rows 0 rows.length :=
    filter_zipIdx_eq_rowsBetween fun j hj => by simpa [isWithin] using hj
  rw [hwhole, rowsBetween_zero_length]

theorem rowsWithin_none_zero (i : Nat) (rows : List Row) :
    rowsWithin none (some 0) i rows = rowsBetween rows 0 (i + 1) :=
  filter_zipIdx_eq_rowsBetween fun _ _ => by
    simp only [isWithin, Option.all_none, Option.all_some, Bool.true_and, decide_eq_true_eq,
      Int64.toInt_zero]
    omega

theorem rowsWithin_zero_zero (i : Nat) (rows : List Row) :
    rowsWithin (some 0) (some 0) i rows = rowsBetween rows i (i + 1) :=
  filter_zipIdx_eq_rowsBetween fun _ _ => by
    simp only [isWithin, Option.all_some, Bool.and_eq_true, decide_eq_true_eq, Int64.toInt_zero]
    omega

end RowDistance

theorem RowDistance.ofBounds_of_liesAt {η : Type} [Tally η] (tally : η) {lower upper : FrameBound}
    {l u : Option Int64} (hlower : lower.LiesAt l) (hupper : upper.LiesAt u) :
    ofBounds tally lower upper = .ok { held := { tally }, lower := l, upper := u } := by
  rw [ofBounds, Answer.bind_of_ok (distance?_eq_ok_iff.mpr hlower),
    Answer.bind_of_ok (distance?_eq_ok_iff.mpr hupper)]
  rfl

theorem Frame.ofRows_of_retracts {tally : CallTally σ} {lower upper : FrameBound}
    {shape : FrameShape} {l u : Option Int64} (hlower : lower.LiesAt l) (hupper : upper.LiesAt u)
    (hretracts : shape.retracts = true) :
    ofRows tally lower upper shape =
      .ok (rowDistance { held := { tally }, lower := l, upper := u }) := by
  cases shape <;> cases hretracts
  all_goals
    simp only [ofRows, Answer.bind_of_ok (RowDistance.ofBounds_of_liesAt tally hlower hupper)]
    rfl

/-- **The frame between two row distances**, of whatever kind it is. -/
theorem Frame.exists_ofRows {fresh : CallTally σ} {lower upper : FrameBound} {shape : FrameShape}
    {l u : Option Int64} (hshape : FrameShape.ofBounds .rows lower upper = .ok shape)
    (hlower : lower.LiesAt l) (hupper : upper.LiesAt u) (h : fresh.IsFramed types) :
    ∃ f, ofRows fresh lower upper shape = .ok f ∧
      f.Moves types fresh (shape.retracts = true) fun rows i held =>
        held = RowDistance.rowsWithin l u i rows := by
  -- Four evaluators: the whole partition, a growing front, the current row, a sliding window.
  rcases FrameShape.cases_of_ofBounds hshape with
    ⟨rfl, rfl, rfl⟩ | ⟨rfl, rfl⟩ | ⟨rfl, rfl, rfl, -⟩ | hretracts
  · cases hlower
    cases hupper
    refine ⟨_, rfl, (moves_whole h).imp ?_⟩
    rintro rows - i held rfl
    exact (RowDistance.rowsWithin_none_none i held).symm
  · have hdistance := RowDistance.ofBounds_of_liesAt fresh hlower hupper
    cases hlower
    by_cases hcurrent : upper = .currentRow
    · subst hcurrent
      cases hupper
      refine ⟨_, rfl, (moves_forward h false).imp ?_⟩
      rintro rows - i held rfl
      exact (RowDistance.rowsWithin_none_zero i rows).symm
    -- no lower bound: rows only come in
    · refine ⟨_, ?_, moves_rowDistance h (.inl rfl)⟩
      simp only [ofRows, hcurrent, and_false, if_false, Answer.bind_of_ok hdistance]
      rfl
  · cases hlower
    cases hupper
    refine ⟨_, rfl, (moves_forward h true).imp ?_⟩
    rintro rows - i held rfl
    exact (RowDistance.rowsWithin_zero_zero i rows).symm
  · exact ⟨_, ofRows_of_retracts hlower hupper hretracts, moves_rowDistance h (.inr hretracts)⟩

namespace WindowGroup

variable {g : WindowGroup} {shape : FrameShape}

/-- The literal distances of an accepted ROWS frame are integers. -/
theorem exists_integer_of_checkRowDistances (h : g.checkRowDistances = .ok ()) {bound : FrameBound}
    (hbound : bound ∈ [g.lower, g.upper]) {v : Value} (hv : bound.literal? = some v) :
    ∃ k, v = .integer k := by
  have hcheck := Answer.forM_eq_ok_iff.mp h v (List.mem_filterMap.mpr ⟨bound, hbound, hv⟩)
  cases v <;> first | exact ⟨_, rfl⟩ | cases hcheck

/-- The bounds of an accepted ROWS group lie somewhere. -/
theorem exists_distances {registry : Registry σ} (hmode : g.mode = .row)
    (h : g.FrameAccepted types registry shape) :
    ∃ lower upper, g.lower.LiesAt lower ∧ g.upper.LiesAt upper := by
  have hdistances := h.rowDistances hmode
  obtain ⟨lower, hlower⟩ := FrameBound.exists_liesAt h.lower fun _ =>
    exists_integer_of_checkRowDistances hdistances (by simp)
  obtain ⟨upper, hupper⟩ := FrameBound.exists_liesAt h.upper fun _ =>
    exists_integer_of_checkRowDistances hdistances (by simp)
  exact ⟨lower, upper, hlower, hupper⟩

theorem ofGroup_of_mode_eq_row (hmode : g.mode = .row)
    (h : g.FrameAccepted types (Registry.builtin : Registry σ) shape) {tally : CallTally σ}
    {f : Frame σ} (htally : CallTally.ofCalls g.calls Registry.builtin = .ok tally)
    (hf : Frame.ofRows tally g.lower g.upper shape = .ok f) :
    Frame.ofGroup g Registry.builtin = .ok [f] := by
  rw [Frame.ofGroup, hmode]
  simp only [Answer.bind_of_ok htally, Answer.bind_of_ok h.shape_eq, Answer.bind_of_ok hf]
  rfl

/-- **The frame of a ROWS group.** -/
theorem exists_hasFrame_of_mode_eq_row (hmode : g.mode = .row)
    (h : g.FrameAccepted types (Registry.builtin : Registry σ) shape) :
    ∃ (f : Frame σ) (fresh : CallTally σ) (lower upper : Option Int64),
      g.lower.LiesAt lower ∧ g.upper.LiesAt upper ∧
      g.HasFrame types (shape.retracts = true)
        (fun rows i held => held = RowDistance.rowsWithin lower upper i rows) f fresh := by
  obtain ⟨lower, upper, hlower, hupper⟩ := exists_distances hmode h
  obtain ⟨fresh, htally, hframed, hcan⟩ := h.exists_tally
  have hshape := h.shape_eq
  rw [unit_eq_of_mode_eq_row hmode] at hshape
  obtain ⟨f, hf, hmoves⟩ := Frame.exists_ofRows hshape hlower hupper hframed
  exact ⟨f, fresh, lower, upper, hlower, hupper, ofGroup_of_mode_eq_row hmode h htally hf, htally,
    hframed, fun hretracts => hcan ⟨.inl hmode, hretracts⟩, hmoves, h.exists_accepted⟩

theorem exists_framed_of_mode_eq_row (hmode : g.mode = .row)
    (h : g.FrameAccepted types (Registry.builtin : Registry σ) shape) :
    ∃ (f : Frame σ) (fresh : CallTally σ) (lower upper : Option Int64),
      g.lower.LiesAt lower ∧ g.upper.LiesAt upper ∧
      g.Framed types (fun rows i held => held = RowDistance.rowsWithin lower upper i rows)
        f fresh := by
  obtain ⟨f, fresh, lower, upper, hlower, hupper, hframe⟩ := exists_hasFrame_of_mode_eq_row hmode h
  exact ⟨f, fresh, lower, upper, hlower, hupper, hframe.framed⟩

/-! ## Values -/

/-- `SUM($0) OVER (ORDER BY $0 ASC ROWS BETWEEN 1 PRECEDING AND 1 FOLLOWING)`. -/
def sumAround : WindowGroup :=
  { partition := [], sort := [⟨0, true⟩], unit := .rows, lower := .preceding 1,
    upper := .following 1, calls := [.onField "SUM" 0] }

example : sumAround.values (Registry.builtin : Registry Empty)
    { options := {}, rows := #[[.integer 5], [.integer 7], [.integer 9]] } =
    .ok [[.integer 12], [.integer 21], [.integer 16]] := by
  decide +kernel

end WindowGroup

end SqlWindow
