import SqlWindow.Proofs.Frame.KeyDistance
import SqlWindow.Proofs.Row.Order
import SqlWindow.Proofs.Value.Shift

set_option autoImplicit false

/-! # Edges on conforming rows

The edges of an accepted group can be evaluated between any two conforming rows. On a sorted
partition they keep to the order of the rows as long as a distance moves the keys evenly: each
edge then compares a value of the candidate with a target value of the current row, and both
grow from row to row.
-/

namespace SqlWindow

variable {types : List DataType} {rows : List Row} {sort : List SortKey}

/-! ## Evaluating an edge -/

namespace Value

variable {v d : Value} {type : DataType}

/-- A distance that fits a type moves the values of this type. -/
theorem exists_shift (hv : v.Conforms type) (hadditive : type.isAdditive)
    (hd : WindowGroup.distanceFits type d) : ∃ w, v.shift d = .ok w := by
  by_cases hnull : v.isNull
  · cases v <;> first | exact ⟨_, rfl⟩ | cases hnull
  · obtain rfl := hv.resolve_left hnull
    cases v <;> cases d <;> first | exact ⟨_, rfl⟩ | (cases hd; done) | cases hadditive

theorem exists_negate (hd : WindowGroup.distanceFits type d) :
    ∃ w, d.negate = .ok w ∧ WindowGroup.distanceFits type w := by
  cases d <;> first | exact ⟨_, rfl, hd⟩ | cases hd

end Value

namespace EdgePlace

variable {place : EdgePlace} {bound : FrameBound} {current candidate : Row}

/-- The place can be evaluated on rows of these types: its fields exist, and its distance fits
the field it is counted along. -/
def Fits (types : List DataType) : EdgePlace → Prop
  | unbounded => True
  | peers sort => Row.FieldsExist types sort
  | distance key d => ∃ type, fieldType types key.index = .ok type ∧ type.isAdditive = true ∧
      WindowGroup.distanceFits type d = true

theorem Fits.exists_position (h : place.Fits types) (hcurrent : Row.Conforms current types)
    (hcandidate : Row.Conforms candidate types) :
    ∃ position, place.position? current candidate = .ok position := by
  cases place with
  | unbounded => exact ⟨none, rfl⟩
  | peers sort =>
    refine ⟨some (Row.keyOrder sort candidate current), ?_⟩
    rw [position?, Answer.bind_of_ok (Row.order_eq_keyOrder hcandidate hcurrent h)]
    rfl
  | distance key d =>
    obtain ⟨type, htype, hadditive, hfits⟩ := h
    obtain ⟨hx, hxtype⟩ := hcurrent.field_eq htype
    obtain ⟨hy, -⟩ := hcandidate.field_eq htype
    obtain ⟨w, hw⟩ := Value.exists_shift hxtype hadditive hfits
    rw [position?, Answer.bind_of_ok hx, Answer.bind_of_ok hy]
    cases (Row.value current key.index).isNull <;> cases (Row.value candidate key.index).isNull
    · exact ⟨_, Answer.bind_of_ok hw⟩
    · exact ⟨_, rfl⟩
    · exact ⟨_, rfl⟩
    · exact ⟨_, rfl⟩

/-- The literal distance of a bound fits the first ordering field. -/
def DistanceFits (types : List DataType) (sort : List SortKey) (bound : FrameBound) : Prop :=
  ∀ d, bound.literal? = some d → ∃ key rest type, sort = key :: rest ∧
    fieldType types key.index = .ok type ∧ type.isAdditive = true ∧
      WindowGroup.distanceFits type d = true

/-- An accepted bound has a place. -/
theorem exists_ofBound (hbound : WindowGroup.checkBound bound = .ok ())
    (hsort : Row.FieldsExist types sort) (hdistance : DistanceFits types sort bound) :
    ∃ place, ofBound bound sort = .ok place ∧ place.Fits types := by
  cases bound with
  | currentRow => exact ⟨peers sort, rfl, hsort⟩
  | unboundedPreceding => exact ⟨unbounded, rfl, trivial⟩
  | unboundedFollowing => exact ⟨unbounded, rfl, trivial⟩
  | distance o =>
    cases o with
    | field index => cases hbound
    | literal d =>
      obtain ⟨key, rest, type, rfl, htype, hadditive, hfits⟩ := hdistance d rfl
      -- in a descending order the distance counts the other way
      cases hascending : key.ascending with
      | true =>
        refine ⟨distance key d, ?_, type, htype, hadditive, hfits⟩
        simp only [ofBound, hascending]
        rfl
      | false =>
        obtain ⟨w, hw, hwfits⟩ := Value.exists_negate hfits
        refine ⟨distance key w, ?_, type, htype, hadditive, hwfits⟩
        simp only [ofBound, hascending, hw]
        rfl

end EdgePlace

namespace Edge

variable {e : Edge}

/-- **Edges can be evaluated.** An edge that fits the types of the input fields can be evaluated
between any two rows that conform. -/
theorem total_of_fits (h : e.place.Fits types) (hrows : ∀ row ∈ rows, Row.Conforms row types) :
    e.Total rows := by
  intro current hcurrent candidate hcandidate
  obtain ⟨position, hposition⟩ := h.exists_position (hrows _ hcurrent) (hrows _ hcandidate)
  rw [admits, Answer.bind_of_ok hposition]
  cases position with
  | none => exact ⟨true, rfl⟩
  | some o => exact ⟨isInside e.side o, rfl⟩

/-! ## Edges and the order of the rows -/

/-- Along the partition a lower edge loses rows at the front only and an upper edge gains rows at
the end only. -/
def KeepsOrder (e : Edge) (rows : List Row) : Prop :=
  ∀ i i' j j' : Nat, i ≤ i' → j ≤ j' → i' < rows.length → j' < rows.length →
    match e.side with
    | .lower => e.Admits rows i' j → e.Admits rows i j'
    | .upper => e.Admits rows i j' → e.Admits rows i' j

theorem ordered_of_keepsOrder {lower upper : EdgePlace}
    (hlower : KeepsOrder ⟨.lower, lower⟩ rows) (hupper : KeepsOrder ⟨.upper, upper⟩ rows) :
    Ordered ⟨.lower, lower⟩ ⟨.upper, upper⟩ rows where
  lower {i i' j j'} hi hj hj' h := by
    obtain ⟨_, _, hcurrent, _⟩ := id h
    exact hlower i i' j j' hi hj (List.getElem?_eq_some_iff.mp hcurrent).1 hj' h
  upper {i i' j j'} hi hj hi' h := by
    obtain ⟨_, _, _, hcandidate, _⟩ := id h
    exact hupper i i' j j' hi hj hi' (List.getElem?_eq_some_iff.mp hcandidate).1 h

/-- Values that do not fall from row to row. -/
def Grows {α : Type} (cmp : α → α → Ordering) (f : Row → α) (rows : List Row) : Prop :=
  ∀ {i j : Nat} {a b : Row}, i ≤ j → rows[i]? = some a → rows[j]? = some b → (cmp (f a) (f b)).isLE

theorem isInside_lower {α : Type} {cmp : α → α → Ordering} [Std.TransCmp cmp] (a b : α) :
    isInside .lower (cmp a b) = (cmp b a).isLE := by
  rw [@Std.OrientedCmp.eq_swap _ cmp _ b a]
  cases cmp a b <;> rfl

theorem isInside_upper (o : Ordering) : isInside .upper o = o.isLE := by
  cases o <;> rfl

/-- **Comparing with a target.** An edge keeps to the order of the rows when it compares a value
of the candidate with a target of the current row and both grow. -/
theorem keepsOrder_of_grows {α : Type} {cmp : α → α → Ordering} [Std.TransCmp cmp]
    {f target : Row → α} (hf : Grows cmp f rows) (htarget : Grows cmp target rows)
    (hadmits : ∀ current ∈ rows, ∀ candidate ∈ rows,
      e.admits current candidate = .ok (isInside e.side (cmp (f candidate) (target current)))) :
    e.KeepsOrder rows := by
  intro i i' j j' hi hj hi' hj'
  have hcurrent : rows[i]? = some rows[i] := List.getElem?_eq_getElem (by omega)
  have hcurrent' : rows[i']? = some rows[i'] := List.getElem?_eq_getElem hi'
  have hcandidate : rows[j]? = some rows[j] := List.getElem?_eq_getElem (by omega)
  have hcandidate' : rows[j']? = some rows[j'] := List.getElem?_eq_getElem hj'
  have hiff {i j : Nat} {a b : Row} (ha : rows[i]? = some a) (hb : rows[j]? = some b) :
      e.Admits rows i j ↔ isInside e.side (cmp (f b) (target a)) = true := by
    rw [admits_iff ha hb, hadmits a (List.mem_of_getElem? ha) b (List.mem_of_getElem? hb),
      Except.ok.injEq]
  -- Both sides of the comparison move the same way: values with `j`, targets with `i`.
  have hvalues := hf hj hcandidate hcandidate'
  have htargets := htarget hi hcurrent hcurrent'
  cases hside : e.side with
  | lower =>
    show e.Admits rows i' j → e.Admits rows i j'
    rw [hiff hcurrent' hcandidate, hiff hcurrent hcandidate', hside, isInside_lower,
      isInside_lower]
    exact fun h => Std.TransCmp.isLE_trans htargets (Std.TransCmp.isLE_trans h hvalues)
  | upper =>
    show e.Admits rows i j' → e.Admits rows i' j
    rw [hiff hcurrent hcandidate', hiff hcurrent' hcandidate, hside, isInside_upper,
      isInside_upper]
    exact fun h => Std.TransCmp.isLE_trans (Std.TransCmp.isLE_trans hvalues h) htargets

end Edge

/-! ## The edges of bounds -/

namespace SortKey

variable {key : SortKey} {x x' y : Value}

/-- Beside a value NULL is at its own end, whichever value it is. -/
theorem order_congr_of_rank (hrank : x'.rank = x.rank) (hne : y.rank ≠ x.rank) :
    key.order y x' = key.order y x := by
  unfold order
  rw [Value.order_of_rank_ne hne, Value.order_of_rank_ne (hrank ▸ hne), hrank]

theorem order_of_isNull (hx : x.isNull) (hy : y.isNull) : key.order y x = .eq := by
  unfold order
  cases x <;> cases hx
  cases y <;> cases hy
  cases key.ascending <;> rfl

/-- Even moves keep the order along an ordering field, in either direction. -/
theorem isLE_movedBy {type : DataType} (hx : x.Conforms type) (hy : y.Conforms type)
    (hxeven : x.MovesEvenly) (hyeven : y.MovesEvenly) (h : (key.keyOrder x y).isLE) (k : Int64) :
    (key.keyOrder (x.movedBy k) (y.movedBy k)).isLE := by
  have hmoved {v : Value} (hv : v.Conforms type) : (v.movedBy k).Conforms type := by
    unfold Value.Conforms at *
    rwa [Value.isNull_movedBy, Value.type_movedBy]
  unfold keyOrder at *
  cases hascending : key.ascending with
  | true =>
    rw [hascending, if_pos rfl, ← Value.order_eq_keyOrder_of_conforms hx hy] at h
    rw [if_pos rfl, ← Value.order_eq_keyOrder_of_conforms (hmoved hx) (hmoved hy)]
    exact Value.order_movedBy hxeven hyeven h k
  | false =>
    rw [hascending, if_neg nofun, ← Value.order_eq_keyOrder_of_conforms hy hx] at h
    rw [if_neg nofun, ← Value.order_eq_keyOrder_of_conforms (hmoved hy) (hmoved hx)]
    exact Value.order_movedBy hyeven hxeven h k

end SortKey

theorem Value.rank_ne_of_isNull_ne {v w : Value} (h : v.isNull ≠ w.isNull) :
    v.rank ≠ w.rank := by
  cases v <;> cases w <;> first | (exact absurd rfl h) | nofun

namespace EdgePlace

variable {current candidate : Row} {key : SortKey} {k : Int64} {type : DataType}

theorem position_peers (hcurrent : Row.Conforms current types)
    (hcandidate : Row.Conforms candidate types) (hsort : Row.FieldsExist types sort) :
    (peers sort).position? current candidate =
      .ok (some (Row.keyOrder sort candidate current)) := by
  rw [position?, Answer.bind_of_ok (Row.order_eq_keyOrder hcandidate hcurrent hsort)]
  rfl

/-- **A distance is a comparison with the moved key.** This holds beside NULL, too, which stays
where it is; of two NULL keys the place tells nothing, and they compare equal. -/
theorem position_distance (htype : fieldType types key.index = .ok type)
    (hcurrent : Row.Conforms current types) (hcandidate : Row.Conforms candidate types)
    (heven : (Row.value current key.index).MovesEvenly) :
    ∃ position, (distance key (.integer k)).position? current candidate = .ok position ∧
      position.getD .eq = key.keyOrder (Row.value candidate key.index)
        ((Row.value current key.index).movedBy k) := by
  obtain ⟨hx, hxtype⟩ := hcurrent.field_eq htype
  obtain ⟨hy, hytype⟩ := hcandidate.field_eq htype
  rw [position?, Answer.bind_of_ok hx, Answer.bind_of_ok hy]
  generalize Row.value current key.index = x at *
  generalize Row.value candidate key.index = y at *
  have hmoved : (x.movedBy k).Conforms type := by
    unfold Value.Conforms at *
    rwa [Value.isNull_movedBy, Value.type_movedBy]
  rw [← SortKey.order_eq_keyOrder hytype hmoved]
  -- Of NULL and a value the ranks decide, and moving changes none.
  have hone (hnull : y.isNull ≠ x.isNull) :
      (some (key.order y x)).getD .eq = key.order y (x.movedBy k) :=
    (SortKey.order_congr_of_rank (x.rank_movedBy k) (Value.rank_ne_of_isNull_ne hnull)).symm
  cases hxnull : x.isNull with
  | true =>
    cases hynull : y.isNull with
    | true =>
      refine ⟨none, rfl, ?_⟩
      rw [SortKey.order_of_isNull (by rw [Value.isNull_movedBy, hxnull]) hynull]
      rfl
    | false => exact ⟨some (key.order y x), rfl, hone (by rw [hxnull, hynull]; nofun)⟩
  | false =>
    cases hynull : y.isNull with
    | true => exact ⟨some (key.order y x), rfl, hone (by rw [hxnull, hynull]; nofun)⟩
    | false => exact ⟨some (key.order y (x.movedBy k)), by rw [heven.shift]; rfl, rfl⟩

/-- The place is the end of the partition, the current row's peers in the ordering `sort`, or a
distance along the first ordering field that moves all its values evenly. -/
def IsEven (sort : List SortKey) (rows : List Row) : EdgePlace → Prop
  | unbounded => True
  | peers keys => keys = sort
  | distance key d => ∃ k rest, d = .integer k ∧ sort = key :: rest ∧
      ∀ row ∈ rows, (Row.value row key.index).MovesEvenly

end EdgePlace

namespace Edge

variable {side : Side} {place : EdgePlace} {current candidate : Row}

theorem admits_of_position {position : Option Ordering}
    (h : place.position? current candidate = .ok position) :
    (Edge.mk side place).admits current candidate = .ok (isInside side (position.getD .eq)) := by
  rw [admits, Answer.bind_of_ok h]
  cases position with
  | none => cases side <;> rfl
  | some o => rfl

/-- **Edges keep to the order.** On a sorted partition of conforming rows an even edge does. -/
theorem keepsOrder_of_isEven (hsorted : Row.Sorted sort rows)
    (hrows : ∀ row ∈ rows, Row.Conforms row types) (hsort : Row.FieldsExist types sort)
    (heven : place.IsEven sort rows) : (Edge.mk side place).KeepsOrder rows := by
  cases place with
  | unbounded =>
    -- no field is compared: all rows are alike
    exact @keepsOrder_of_grows _ _ _ (Row.keyOrder []) _ id id (fun _ _ _ => rfl)
      (fun _ _ _ => rfl) fun _ _ _ _ => by cases side <;> rfl
  | peers keys =>
    obtain rfl : keys = sort := heven
    -- the target of a row is the row itself
    exact @keepsOrder_of_grows _ _ _ (Row.keyOrder keys) _ id id
      (fun hij hi hj => hsorted.isLE hrows hsort hij hi hj)
      (fun hij hi hj => hsorted.isLE hrows hsort hij hi hj)
      fun current hc candidate hy =>
        admits_of_position (EdgePlace.position_peers (hrows _ hc) (hrows _ hy) hsort)
  | distance key d =>
    obtain ⟨k, rest, rfl, rfl, hmoves⟩ := heven
    obtain ⟨type, htype⟩ := hsort key List.mem_cons_self
    -- the target of a row is its key, moved; moving keeps the keys in order
    have hgrows : Grows key.keyOrder (fun row => Row.value row key.index) rows :=
      fun hij hi hj => Row.isLE_of_isLE_cons (hsorted.isLE hrows hsort hij hi hj)
    refine @keepsOrder_of_grows _ _ _ key.keyOrder _ _
      (fun row => (Row.value row key.index).movedBy k) hgrows ?_ ?_
    · intro i j a b hij hi hj
      have ha := List.mem_of_getElem? hi
      have hb := List.mem_of_getElem? hj
      exact SortKey.isLE_movedBy ((hrows a ha).field_eq htype).2 ((hrows b hb).field_eq htype).2
        (hmoves a ha) (hmoves b hb) (hgrows hij hi hj) k
    · intro current hc candidate hy
      obtain ⟨position, hposition, heq⟩ :=
        EdgePlace.position_distance htype (hrows _ hc) (hrows _ hy) (hmoves _ hc)
      rw [admits_of_position hposition, heq]

end Edge

end SqlWindow
