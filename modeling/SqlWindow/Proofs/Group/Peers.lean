import SqlWindow.Proofs.Frame.Peers
import SqlWindow.Proofs.Group.RangeFrame

set_option autoImplicit false

/-! # Peers share their values

In a RANGE group two rows next to each other that no ordering field tells apart get the same
values, whether or not the partition is sorted. In a sorted partition the rows between two peers
are peers of both, so all peers share their values.
-/

namespace SqlWindow

variable {σ : Type} {types : List DataType} {rows : List Row}

/-! ## Peers of a sorted partition -/

namespace Row

variable {sort : List SortKey} {a b c : Row} {i j k : Nat}

theorem arePeers_eq_true_iff (ha : Row.Conforms a types) (hb : Row.Conforms b types)
    (hsort : FieldsExist types sort) :
    arePeers sort a b = .ok true ↔ keyOrder sort a b = .eq := by
  rw [arePeers, Answer.bind_of_ok (order_eq_keyOrder ha hb hsort)]
  show Except.ok (keyOrder sort a b == .eq) = .ok true ↔ _
  rw [Except.ok.injEq, beq_iff_eq]

/-- A row between two peers is a peer of them. -/
theorem Sorted.keyOrder_eq_of_between (h : Sorted sort rows)
    (hrows : ∀ row ∈ rows, Row.Conforms row types) (hsort : FieldsExist types sort)
    (hik : i ≤ k) (hkj : k ≤ j) (hi : rows[i]? = some a) (hk : rows[k]? = some b)
    (hj : rows[j]? = some c) (hpeers : keyOrder sort a c = .eq) : keyOrder sort a b = .eq := by
  have hle := h.isLE hrows hsort hik hi hk
  have hge := h.isLE hrows hsort hkj hk hj
  rw [← Std.TransCmp.congr_right hpeers] at hge
  exact Std.OrientedCmp.isLE_antisymm hle hge

/-- What is alike for any two peers next to each other is alike for all peers. -/
theorem Sorted.eq_of_peers {α : Type} {v : Nat → α} (h : Sorted sort rows)
    (hrows : ∀ row ∈ rows, Row.Conforms row types) (hsort : FieldsExist types sort)
    (hnext : ∀ i a b, rows[i]? = some a → rows[i + 1]? = some b → keyOrder sort a b = .eq →
      v i = v (i + 1))
    (hij : i ≤ j) (hi : rows[i]? = some a) (hj : rows[j]? = some b)
    (hpeers : keyOrder sort a b = .eq) : v i = v j := by
  -- The induction is on the way from `i` to `j`, through peers all along.
  induction j, hij using Nat.le_induction generalizing b with
  | base => rfl
  | succ j hij ih =>
    have hlt := (List.getElem?_eq_some_iff.mp hj).1
    have hmid : rows[j]? = some rows[j] := List.getElem?_eq_getElem (by omega)
    have hpeers' : keyOrder sort a rows[j] = .eq :=
      h.keyOrder_eq_of_between hrows hsort hij (Nat.le_succ j) hi hmid hj hpeers
    have hlast : keyOrder sort rows[j] b = .eq := by
      rw [← Std.TransCmp.congr_left hpeers', hpeers]
    rw [ih hmid hpeers', hnext j _ _ hmid hj hlast]

end Row

/-! ## Groups -/

namespace WindowGroup

variable {g : WindowGroup} {shape : FrameShape}

/-- The frame of a RANGE group shares its values among peers. -/
theorem exists_sharedByPeers (hunit : g.unit = .range) (hmode : g.mode ≠ .offset)
    (hfields : g.FieldsAccepted types)
    (h : g.FrameAccepted types (Registry.builtin : Registry σ) shape)
    (hrows : ∀ row ∈ rows, Row.Conforms row types) :
    ∃ f : Frame σ, Frame.ofGroup g Registry.builtin = .ok [f] ∧ f.renew = f ∧
      f.SharedByPeers g.sort rows := by
  obtain ⟨fresh, htally, hframed, hcan⟩ := h.exists_tally
  have hwhole : (Frame.whole { tally := fresh }).renew = .whole { tally := fresh } :=
    congrArg (fun t => Frame.whole { tally := t }) hframed.renew_eq
  unfold Frame.ofGroup
  cases hcase : g.mode with
  | offset => exact absurd hcase hmode
  | row =>
    rw [unit_eq_of_mode_eq_row hcase] at hunit
    cases hunit
  | insensitive =>
    simp only [Answer.bind_of_ok htally]
    exact ⟨_, rfl, hwhole, Frame.sharedByPeers_whole hframed hrows⟩
  | range =>
    obtain ⟨lower, upper, hlower, hupper, hl, hu⟩ := exists_places hcase hfields h
    simp only [Answer.bind_of_ok htally, Answer.bind_of_ok h.shape_eq]
    have hshape := h.shape_eq
    rw [hunit] at hshape
    rcases Frame.ofRange_cases fresh hshape hlower hupper with ⟨-, -, hf⟩ | ⟨hretracts, hf⟩
    · simp only [Answer.bind_of_ok hf]
      exact ⟨_, rfl, hwhole, Frame.sharedByPeers_whole hframed hrows⟩
    · simp only [Answer.bind_of_ok hf]
      refine ⟨_, rfl, congrArg (fun t => Frame.keyDistance
        ⟨{ tally := t }, ⟨.lower, lower⟩, ⟨.upper, upper⟩, 0, 0, 0⟩) hframed.renew_eq, ?_⟩
      refine Frame.sharedByPeers_keyDistance hframed hrows hl hu
        (EdgePlace.liesAlong_of_ofBound hlower) (EdgePlace.liesAlong_of_ofBound hupper) ?_
      rcases hretracts with rfl | hretracts
      · exact .inl fun _ _ hi hj => Edge.Admits.of_unbounded hi hj
      · exact .inr (hcan ⟨.inr hcase, hretracts⟩)

/-- **Peers share their values.** For every accepted RANGE group without lookups, whatever the
bounds of its frame, and every partition of conforming rows, sorted or not, two rows next to each
other that no ordering field tells apart get identical values, though their ordering values need
not be identical. In a sorted partition this is so for any two peers. It does not matter what
earlier partitions have left in the frames. -/
theorem values_of_peers {position : Nat} {store : RowStore}
    (hcheck : g.check position types (Registry.builtin : Registry σ) = .ok ())
    (hunit : g.unit = .range) (hmode : g.mode ≠ .offset)
    (hrows : ∀ row ∈ rows, Row.Conforms row types) (hstore : store.Holds rows) :
    ∃ (frames : List (Frame σ)) (values : List Row),
      Frame.ofGroup g Registry.builtin = .ok frames ∧
      g.values (Registry.builtin : Registry σ) store = .ok values ∧
      (∀ left : List (Frame σ), left.map Frame.renew = frames →
        (Frame.askAll.outcome (left, store)).1 = .ok values) ∧
      values.length = rows.length ∧
      (∀ (i : Nat) (a b : Row), rows[i]? = some a → rows[i + 1]? = some b →
        Row.arePeers g.sort a b = .ok true → values[i]? = values[i + 1]?) ∧
      (Row.Sorted g.sort rows → ∀ (i j : Nat) (a b : Row), rows[i]? = some a →
        rows[j]? = some b → Row.arePeers g.sort a b = .ok true → values[i]? = values[j]?) := by
  obtain ⟨hfields, -, hframed⟩ := accepted_of_check hcheck
  obtain ⟨shape, hshape⟩ := hframed hmode
  obtain ⟨f, hf, hnew, v, hv, hshared⟩ := exists_sharedByPeers hunit hmode hfields hshape hrows
  obtain ⟨values, hvalues, hlength, hget, hleft⟩ := exists_values_of_frame hf hnew hv hstore
  have hlt {i : Nat} {a : Row} (h : rows[i]? = some a) : i < rows.length :=
    (List.getElem?_eq_some_iff.mp h).1
  have hpeers {i j : Nat} {a b : Row} (ha : rows[i]? = some a) (hb : rows[j]? = some b) :=
    Row.arePeers_eq_true_iff (hrows a (List.mem_of_getElem? ha)) (hrows b (List.mem_of_getElem? hb))
      hfields.sort
  refine ⟨[f], values, hf, hvalues, hleft, hlength, fun i a b ha hb h => ?_,
    fun hsorted i j a b ha hb h => ?_⟩
  · rw [hget i (hlt ha), hget (i + 1) (hlt hb), hshared i a b ha hb ((hpeers ha hb).mp h)]
  · rw [hpeers ha hb] at h
    have heq {i j : Nat} {a b : Row} (hij : i ≤ j) (ha : rows[i]? = some a)
        (hb : rows[j]? = some b) (h : Row.keyOrder g.sort a b = .eq) : v i = v j :=
      hsorted.eq_of_peers hrows hfields.sort
        (fun i a b ha hb h => (hshared i a b ha hb h).symm) hij ha hb h
    rw [hget i (hlt ha), hget j (hlt hb)]
    rcases Nat.le_total i j with hij | hji
    · rw [heq hij ha hb h]
    · rw [heq hji hb ha (Std.OrientedCmp.eq_symm h)]

/-- `SUM($1) OVER (ORDER BY $0 RANGE BETWEEN 1 PRECEDING AND 1.0 FOLLOWING)`. -/
def sumOfNear : WindowGroup :=
  { partition := [], sort := [⟨0, true⟩], unit := .range, lower := .preceding 1,
    upper := .offset (.float (Double.ofInt 1)), calls := [.onField "SUM" 1] }

/-- Three pairs of peers that are not identical: NULLs, zeros and NaNs. -/
def sumOfNearRows : List Row :=
  [[.unknown, .integer 1], [.null .float, .integer 2], [.float (Double.zero true), .integer 4],
    [.float (Double.zero false), .integer 8], [.float Double.nan, .integer 16],
    [.float Double.nan.neg, .integer 32]]

theorem values_of_peers_sumOfNear :
    ∃ (frames : List (Frame Empty)) (values : List Row),
      Frame.ofGroup sumOfNear Registry.builtin = .ok frames ∧
      sumOfNear.values (Registry.builtin : Registry Empty)
        { options := {}, rows := sumOfNearRows.toArray } = .ok values ∧
      (∀ left : List (Frame Empty), left.map Frame.renew = frames →
        (Frame.askAll.outcome (left, { options := {}, rows := sumOfNearRows.toArray })).1 =
          .ok values) ∧
      values.length = 6 ∧
      (∀ (i : Nat) (a b : Row), sumOfNearRows[i]? = some a → sumOfNearRows[i + 1]? = some b →
        Row.arePeers sumOfNear.sort a b = .ok true → values[i]? = values[i + 1]?) ∧
      ∀ (i j : Nat) (a b : Row), sumOfNearRows[i]? = some a → sumOfNearRows[j]? = some b →
        Row.arePeers sumOfNear.sort a b = .ok true → values[i]? = values[j]? := by
  have hsorted : Row.Sorted sumOfNear.sort sumOfNearRows := by
    unfold Row.Sorted
    decide +kernel
  obtain ⟨frames, values, hframes, hvalues, hleft, hlength, hnext, hall⟩ :=
    @values_of_peers Empty [.float, .integer] sumOfNearRows sumOfNear 0
      { options := {}, rows := sumOfNearRows.toArray } rfl rfl (by decide) (by decide)
      (RowStore.holds_of_spill_eq_none rfl rfl)
  exact ⟨frames, values, hframes, hvalues, hleft, hlength, hnext, hall hsorted⟩

example : sumOfNear.values (Registry.builtin : Registry Empty)
    { options := {}, rows := sumOfNearRows.toArray } =
    .ok [[.integer 3], [.integer 3], [.integer 12], [.integer 12], [.integer 48],
      [.integer 48]] := by
  decide +kernel

end WindowGroup

end SqlWindow
