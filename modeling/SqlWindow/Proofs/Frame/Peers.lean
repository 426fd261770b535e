import SqlWindow.Proofs.Frame.Evaluates
import SqlWindow.Proofs.Row.Classes
import SqlWindow.Proofs.Value.Equal

set_option autoImplicit false

/-! # Peers and their frames

Rows that no ordering field tells apart are peers. Their ordering values need not be identical, but
an edge of a RANGE frame does not see the difference: from either of two peers it admits the same
rows (`Edge.admits_congr`). So when a frame by key distance comes from a row to a peer of it, both
edges stop where they stand and the slide is to the rows that are already held
(`KeyDistance.Settled`). The tally is not touched, and the second row gets the very values of the
first.
-/

namespace SqlWindow

variable {types : List DataType} {rows : List Row} {sort : List SortKey}

/-! ## Edges seen from peers -/

namespace EdgePlace

variable {place : EdgePlace} {bound : FrameBound} {a b candidate : Row}

/-- The place depends on the fields of the ordering `sort` only. -/
def LiesAlong (sort : List SortKey) : EdgePlace → Prop
  | unbounded => True
  | peers keys => keys = sort
  | distance key _ => key ∈ sort

theorem liesAlong_of_ofBound (h : ofBound bound sort = .ok place) : place.LiesAlong sort := by
  cases bound with
  | currentRow =>
    cases h
    rfl
  | unboundedPreceding =>
    cases h
    trivial
  | unboundedFollowing =>
    cases h
    trivial
  | distance o =>
    cases o with
    | field index => cases h
    | literal d =>
      cases sort with
      | nil => cases h
      | cons key rest =>
        simp only [ofBound] at h
        split at h
        · cases h
          exact List.mem_cons_self
        · obtain ⟨_, -, hplace⟩ := Answer.ok_of_bind_ok h
          cases hplace
          exact List.mem_cons_self

/-- A distance along a field ends, seen from rows with equal values there, at the same place. -/
theorem position_distance_congr {key : SortKey} {d : Value}
    (hfits : (distance key d).Fits types) (ha : Row.Conforms a types) (hb : Row.Conforms b types)
    (hcandidate : Row.Conforms candidate types)
    (hkey : Value.keyOrder (Row.value a key.index) (Row.value b key.index) = .eq) :
    (distance key d).position? a candidate = (distance key d).position? b candidate := by
  obtain ⟨type, htype, hadditive, hd⟩ := hfits
  obtain ⟨hfa, hca⟩ := ha.field_eq htype
  obtain ⟨hfb, hcb⟩ := hb.field_eq htype
  obtain ⟨hfy, hcy⟩ := hcandidate.field_eq htype
  simp only [position?, Answer.bind_of_ok hfa, Answer.bind_of_ok hfb, Answer.bind_of_ok hfy]
  generalize Row.value a key.index = x at *
  generalize Row.value b key.index = x' at *
  generalize Row.value candidate key.index = y at *
  have hequal : x.order x' = .eq := by
    rw [Value.order_eq_keyOrder_of_conforms hca hcb, hkey]
  rw [← Value.isNull_eq_of_same ((Value.same_iff_order_eq x x').mpr hequal)]
  -- Values of the column are in order with equal ones alike.
  have halike {w w' z : Value} (hw : w.Conforms type) (hw' : w'.Conforms type)
      (hz : z.Conforms type) (h : w.order w' = .eq) : key.order z w = key.order z w' := by
    rw [SortKey.order_eq_keyOrder hz hw, SortKey.order_eq_keyOrder hz hw']
    refine Std.TransCmp.congr_right (SortKey.keyOrder_eq_eq_iff.mpr ?_)
    rwa [← Value.order_eq_keyOrder_of_conforms hw hw']
  cases hxnull : x.isNull <;> cases hynull : y.isNull
  case false.false =>
    -- the distance leads to one value, or to equal floats in a column of floats
    rcases Value.shift_of_order_eq hca hcb hequal hxnull d with
      hshift | ⟨rfl, w, w', hw, hw', hww'⟩
    · rw [hshift]
    · rw [hw, hw']
      exact congrArg (fun o => Except.ok (some o)) (halike (.inr rfl) (.inr rfl) hcy hww')
  all_goals first | rfl | exact congrArg (fun o => Except.ok (some o)) (halike hca hcb hcy hequal)

/-- **A place is the same seen from peers.** -/
theorem position_congr (hfits : place.Fits types) (halong : place.LiesAlong sort)
    (ha : Row.Conforms a types) (hb : Row.Conforms b types)
    (hcandidate : Row.Conforms candidate types) (hpeers : Row.keyOrder sort a b = .eq) :
    place.position? a candidate = place.position? b candidate := by
  cases place with
  | unbounded => rfl
  | peers keys =>
    obtain rfl : keys = sort := halong
    rw [position_peers ha hcandidate hfits, position_peers hb hcandidate hfits,
      Std.TransCmp.congr_right hpeers]
  | distance key d =>
    exact position_distance_congr hfits ha hb hcandidate
      (Row.keyOrder_eq_eq_iff.mp hpeers key halong)

end EdgePlace

namespace Edge

variable {e : Edge} {a b : Row} {i i' : Nat}

/-- **An edge admits the same rows seen from peers.** -/
theorem admits_congr {candidate : Row} (hfits : e.place.Fits types)
    (halong : e.place.LiesAlong sort) (ha : Row.Conforms a types) (hb : Row.Conforms b types)
    (hcandidate : Row.Conforms candidate types) (hpeers : Row.keyOrder sort a b = .eq) :
    e.admits a candidate = e.admits b candidate := by
  rw [admits, admits, EdgePlace.position_congr hfits halong ha hb hcandidate hpeers]

/-- Seen from the rows of two peers an edge admits the same positions. -/
theorem admits_iff_of_peers (hfits : e.place.Fits types) (halong : e.place.LiesAlong sort)
    (hrows : ∀ row ∈ rows, Row.Conforms row types) (ha : rows[i]? = some a)
    (hb : rows[i']? = some b) (hpeers : Row.keyOrder sort a b = .eq) (j : Nat) :
    e.Admits rows i j ↔ e.Admits rows i' j := by
  have hcongr {candidate : Row} (hj : rows[j]? = some candidate) :
      e.admits a candidate = e.admits b candidate :=
    admits_congr hfits halong (hrows a (List.mem_of_getElem? ha))
      (hrows b (List.mem_of_getElem? hb)) (hrows candidate (List.mem_of_getElem? hj)) hpeers
  constructor
  · rintro ⟨a', candidate, ha', hj, hadmits⟩
    rw [ha] at ha'
    cases ha'
    exact ⟨b, candidate, hb, hj, hcongr hj ▸ hadmits⟩
  · rintro ⟨b', candidate, hb', hj, hadmits⟩
    rw [hb] at hb'
    cases hb'
    exact ⟨a, candidate, ha, hj, hcongr hj ▸ hadmits⟩

end Edge

/-! ## Frames between edges -/

/-- A frame that has settled for a row has settled for every row from which its edges admit the
same. -/
theorem KeyDistance.Settled.congr {η : Type} {f : KeyDistance η} {i i' : Nat}
    (h : Settled rows i f) (hlower : ∀ j, f.lower.Admits rows i j ↔ f.lower.Admits rows i' j)
    (hupper : ∀ j, f.upper.Admits rows i j ↔ f.upper.Admits rows i' j) : Settled rows i' f :=
  { h with
    lower := fun hlo => (hlower f.lo).mp (h.lower hlo)
    upper := fun hhi hadmits => h.upper hhi ((hupper f.hi).mpr hadmits) }

namespace Frame

variable {σ : Type} {fresh : CallTally σ} {retracts : Prop} {lower upper : Edge}

/-- The frame answers the partition, and the answers to two peers next to each other are
identical. -/
def SharedByPeers (sort : List SortKey) (rows : List Row) (f : Frame σ) : Prop :=
  ∃ v, Evaluates rows f v ∧ ∀ (i : Nat) (a b : Row), rows[i]? = some a → rows[i + 1]? = some b →
    Row.keyOrder sort a b = .eq → v (i + 1) = v i

/-- A frame shares its values among peers when it is prepared to one state and an invariant leads
from row to row, in a state from which a peer of the row is answered as the row was. -/
theorem sharedByPeers_of_steps {f₀ : Frame σ} (f₁ : Frame σ) (I : Nat → Frame σ → Prop)
    (hprepare : ∀ f : Frame σ, f.renew = f₀ → Reads rows prepare f () f₁) (hf₁ : I 0 f₁)
    (hstep : ∀ i f row, I i f → rows[i]? = some row →
      ∃ v g, Reads rows (process i row) f v g ∧ I (i + 1) g ∧
        ∀ next, rows[i + 1]? = some next → Row.keyOrder sort row next = .eq →
          Reads rows (process (i + 1) next) g v g) :
    f₀.SharedByPeers sort rows := by
  obtain ⟨v, hv, -⟩ := exists_answersFrom (I := I) (Q := fun _ _ => True)
    (fun i f row hf hrow => by
      obtain ⟨v, g, hread, hg, -⟩ := hstep i f row hf hrow
      exact ⟨v, g, hread, hg, trivial⟩) hf₁
  exact ⟨v, ⟨f₁, hprepare, hv⟩, fun i a b ha hb hpeers =>
    hv.eq_next hstep hf₁ (Nat.zero_le i) ha hb hpeers⟩

/-- A frame over the whole partition repeats its values for every row. -/
theorem sharedByPeers_whole (h : fresh.IsFramed types)
    (hrows : ∀ row ∈ rows, Row.Conforms row types) :
    (whole { tally := fresh }).SharedByPeers sort rows := by
  obtain ⟨u, -, hprepare⟩ :=
    exists_prepare_whole h (h.follows hrows) (h.holds_start rows rows.length)
  refine sharedByPeers_of_steps _ (fun _ f => f = whole ⟨u, Tally.values u⟩) hprepare rfl ?_
  rintro i f row rfl -
  exact ⟨_, _, .get fun s _ => .pure _ _, rfl, fun _ _ _ => .get fun s _ => .pure _ _⟩

/-- **A frame between two edges** shares its values among peers. -/
theorem sharedByPeers_keyDistance (h : fresh.IsFramed types)
    (hrows : ∀ row ∈ rows, Row.Conforms row types) (hlower : lower.place.Fits types)
    (hupper : upper.place.Fits types) (hlowerAlong : lower.place.LiesAlong sort)
    (hupperAlong : upper.place.LiesAlong sort)
    (hcan : (∀ i j, i < rows.length → j < rows.length → lower.Admits rows i j) ∨
      fresh.SupportsRetract) :
    (keyDistance { held := { tally := fresh }, lower, upper }).SharedByPeers sort rows := by
  have hlowerTotal := Edge.total_of_fits hlower hrows
  have hupperTotal := Edge.total_of_fits hupper hrows
  let f₁ : KeyDistance (CallTally σ) :=
    { held := { tally := Tally.setWindowSize rows.length (Tally.clear fresh) }, lower, upper,
      length := rows.length }
  have hlength : f₁.length = rows.length := rfl
  refine sharedByPeers_of_steps (keyDistance f₁)
    (fun i f => ∃ g, f = keyDistance g ∧
      KeyDistance.Reached (CallTally.HoldsBetween types fresh rows) rows f₁ i g)
    (reads_prepare_keyDistance h)
    ⟨f₁, rfl, KeyDistance.reached_zero rfl rfl
      ⟨rfl, rfl, Nat.le_refl 0, h.holds_start rows rows.length⟩⟩ ?_
  rintro i f row ⟨g, rfl, hreached⟩ hrow
  obtain ⟨g', hread, -, hsettled, -, hnext⟩ := KeyDistance.exists_process
    (h.follows hrows) hlength hlowerTotal hupperTotal hcan hreached hrow
  refine ⟨_, keyDistance g', .get fun s _ => reads_within hread, ⟨g', rfl, hnext⟩, ?_⟩
  intro next hrow' hpeers
  -- the edges are those of the frame as it was built
  obtain ⟨held, lo, hi, rfl, -⟩ := hnext
  have hagain := (hsettled.congr
    (Edge.admits_iff_of_peers hlower hlowerAlong hrows hrow hrow' hpeers)
    (Edge.admits_iff_of_peers hupper hupperAlong hrows hrow hrow' hpeers)).reads_process rfl
    hlowerTotal hupperTotal hrow'
  exact .get fun s _ => reads_within hagain

end Frame

end SqlWindow
