import SqlWindow.Proofs.Group.Frames

set_option autoImplicit false

/-! # Groups of lookups

A group of LEAD and LAG has one frame for each call. Whatever the calls beside it and the rows
before have left in its function, a call answers each row with the value on the row as far away
as it says there, or with its default on the row itself.
-/

namespace SqlWindow

variable {σ : Type} {types : List DataType}

/-! ## What a lookup answers -/

/-- The position that a lookup asks for from position `i` at the distance `k`: LEAD counts ahead
and LAG back, in unbounded integers. -/
def Lookup.position (lookup : Lookup) (i : Nat) (k : Int64) : Int :=
  match lookup.direction with
  | .forward => i + k.toInt
  | .backward => i - k.toInt

/-- `x` is what a lookup of `value` answers for the row `current` at position `i` of a partition.
The distance is evaluated on this row. -/
inductive Lookup.IsAnswer (lookup : Lookup) (value : Operand) (rows : List Row) (i : Nat)
    (current : Row) (x : Value) : Prop where
  /-- The partition has the row: its value. -/
  | found {k : Int64} {j : Nat} {row : Row}
      (hdistance : lookup.offset.eval current = .ok (.integer k))
      (hposition : (j : Int) = lookup.position i k)
      (hrow : rows[j]? = some row) (hvalue : value.eval row = .ok x)
  /-- The position is none of the partition: the default on the current row. -/
  | outside {k : Int64} (hdistance : lookup.offset.eval current = .ok (.integer k))
      (hposition : ¬(0 ≤ lookup.position i k ∧ lookup.position i k < rows.length))
      (hdefault : lookup.default.eval current = .ok x)
  /-- The distance is NULL: the default on the current row. -/
  | null {type : DataType} (hdistance : lookup.offset.eval current = .ok (.null type))
      (hdefault : lookup.default.eval current = .ok x)

theorem Lookup.position_eq (lookup : Lookup) (i : Nat) (k : Int64) :
    lookup.position i k = i + lookup.direction.sign * k.toInt := by
  rw [position]
  cases lookup.direction with
  | forward => rw [Direction.sign, Int.one_mul]
  | backward => rw [Direction.sign, Int.neg_mul, Int.one_mul, Int.sub_eq_add_neg]

namespace Call

variable {c : Call} {lookup : Lookup}

/-- The direction of a made lookup follows from its name. -/
theorem IsMade.direction_eq (hmade : c.IsMade) (h : c.lookup = some lookup) :
    c.name = "LEAD" ∧ lookup.direction = .forward ∨
      c.name = "LAG" ∧ lookup.direction = .backward := by
  obtain ⟨name, arguments, rfl⟩ := hmade
  obtain ⟨direction, hdirection, rfl⟩ := Option.map_eq_some_iff.mp h
  show uppercase name = _ ∧ _ ∨ uppercase name = _ ∧ _
  unfold direction? at hdirection
  split at hdirection
  · rename_i hname
    exact .inl ⟨hname, (Option.some.inj hdirection).symm⟩
  · rename_i hname
    exact .inr ⟨hname, (Option.some.inj hdirection).symm⟩
  · cases hdirection

end Call

namespace OtherRow

variable {c : Call} {a : Accumulator σ} {lookup : Lookup} {value : Operand} {rows : List Row}
  {i : Nat} {current v : Row}

/-- The frame of a lookup answers with one value, that of the lookup. -/
theorem exists_isAnswer (hvalue : c.value? = some value)
    (h : Answers { ofLookup c a lookup with length := rows.length } (ofLookup c a lookup).tally rows
      i current v) :
    ∃ x, v = [x] ∧ lookup.IsAnswer value rows i current x := by
  have hone {operand : Slot σ → Option Operand} {row : Row} {o : Operand}
      (hoperand : operand ⟨a, c.value?, some lookup.default⟩ = some o)
      (hfeeds : (ofLookup c a lookup).tally.Feeds operand row v) :
      ∃ x, v = [x] ∧ o.eval row = .ok x := by
    have hslots : [Slot.feed (operand ⟨a, c.value?, some lookup.default⟩) row] =
      v.map Except.ok := hfeeds
    rw [hoperand] at hslots
    have hlength : v.length = 1 := by simpa using (congrArg List.length hslots).symm
    obtain ⟨x, rfl⟩ := List.length_eq_one_iff.mp hlength
    exact ⟨x, rfl, List.singleton_inj.mp hslots⟩
  rcases h with ⟨j, row, htarget, hrow, hfeeds⟩ | ⟨htarget, hfeeds⟩
  · obtain ⟨x, rfl, hx⟩ := hone hvalue hfeeds
    obtain ⟨k, hdistance, hposition⟩ := offset_of_target?_eq_some htarget
    exact ⟨x, rfl, .found hdistance (hposition.trans (lookup.position_eq i k).symm) hrow hx⟩
  · obtain ⟨x, rfl, hx⟩ := hone rfl hfeeds
    rcases offset_of_target?_eq_none htarget with ⟨k, hdistance, hposition⟩ | ⟨type, hdistance⟩
    · refine ⟨x, rfl, .outside hdistance ?_ hx⟩
      rwa [lookup.position_eq]
    · exact ⟨x, rfl, .null hdistance hx⟩

end OtherRow

/-! ## The frames of a group -/

/-- Frames of lookups are alike only for lookups alike, of the same values. -/
theorem OtherRow.eq_of_ofLookup_eq {c c' : Call} {a a' : Accumulator σ} {lookup lookup' : Lookup}
    (h : ofLookup c a lookup = ofLookup c' a' lookup') :
    c.value? = c'.value? ∧ lookup = lookup' := by
  obtain ⟨direction, offset, default⟩ := lookup
  obtain ⟨direction', offset', default'⟩ := lookup'
  simp only [ofLookup, mk.injEq, CallTally.mk.injEq, List.cons.injEq, Slot.mk.injEq,
    Option.some.injEq, and_true] at h
  obtain ⟨⟨-, hvalue, rfl⟩, rfl, rfl⟩ := h
  exact ⟨hvalue, rfl⟩

/-- `v` are the answers of the frame of a lookup to the rows of a partition. -/
def Frame.LooksUp (rows : List Row) (f : Frame σ) (v : Nat → Row) : Prop :=
  ∃ c a lookup value, f = otherRow (OtherRow.ofLookup c a lookup) ∧ c.value? = some value ∧
    ∀ i current, rows[i]? = some current →
      ∃ x, v i = [x] ∧ lookup.IsAnswer value rows i current x

/-- What each member of a list has is had by one choice for all of them. -/
theorem exists_forall_mem {α β : Type} [Inhabited β] {P : α → β → Prop} {xs : List α}
    (h : ∀ x ∈ xs, ∃ y, P x y) : ∃ f : α → β, ∀ x ∈ xs, P x (f x) := by
  have hone (x : α) : ∃ y, x ∈ xs → P x y := by
    rcases Classical.em (x ∈ xs) with hx | hx
    · exact (h x hx).imp fun _ hy _ => hy
    · exact ⟨default, fun hmem => absurd hmem hx⟩
  exact Classical.axiomOfChoice hone

/-- Where each member brings one value, the values are those of the members in order. -/
theorem getElem?_flatten_map {α β : Type} {f : α → List β} {xs : List α}
    (h : ∀ x ∈ xs, ∃ y, f x = [y]) {k : Nat} {x : α} {y : β} (hx : xs[k]? = some x)
    (hy : f x = [y]) : (xs.map f).flatten[k]? = some y := by
  induction xs generalizing k with
  | nil => cases hx
  | cons x' xs ih =>
    obtain ⟨y', hy'⟩ := h x' List.mem_cons_self
    rw [List.map_cons, List.flatten_cons, hy', List.singleton_append]
    cases k with
    | zero =>
      cases hx
      rw [hy] at hy'
      cases hy'
      rfl
    | succ k => exact ih (fun x hx => h x (List.mem_cons_of_mem x' hx)) hx

namespace WindowGroup

variable {g : WindowGroup} {frames : List (Frame σ)}

/-- A group of lookups has the frame of each of its calls, in order. -/
theorem LookupsAccepted.getElem?_frames
    (h : g.LookupsAccepted types (Registry.builtin : Registry σ)) (hmode : g.mode = .offset)
    (hframes : Frame.ofGroup g Registry.builtin = .ok frames) {k : Nat} {c : Call}
    (hc : g.calls[k]? = some c) :
    ∃ a lookup, c.LooksUp types lookup ∧
      frames[k]? = some (.otherRow (OtherRow.ofLookup c a lookup)) := by
  obtain ⟨a, lookup, ha, hlookup⟩ := h c (List.mem_of_getElem? hc)
  rw [Frame.ofGroup, hmode] at hframes
  have hframe := congrArg (·[k]?) (Answer.mapM_eq_ok_iff.mp hframes)
  simp only [List.getElem?_map, hc, Option.map_some,
    OtherRow.ofCall_eq_ofLookup ha hlookup] at hframe
  obtain ⟨f, hf, heq⟩ := Option.map_eq_some_iff.mp hframe.symm
  exact ⟨a, lookup, hlookup, hf.trans (congrArg some (Except.ok.inj heq))⟩

/-- Every frame of a group of lookups answers all rows of a partition. -/
theorem LookupsAccepted.exists_looksUp
    (h : g.LookupsAccepted types (Registry.builtin : Registry σ)) (hmode : g.mode = .offset)
    (hframes : Frame.ofGroup g Registry.builtin = .ok frames) (hmade : ∀ c ∈ g.calls, c.IsMade)
    {rows : List Row} (hrows : ∀ row ∈ rows, Row.Conforms row types) :
    ∀ f ∈ frames, ∃ v, f.Evaluates rows v ∧ f.LooksUp rows v := by
  intro f hf
  rw [Frame.ofGroup, hmode] at hframes
  obtain ⟨c, hc, heq⟩ := Answer.exists_of_mem_mapM hframes hf
  obtain ⟨a, lookup, ha, hlookup⟩ := h c hc
  obtain ⟨value, hvalue⟩ := hlookup.value
  rw [OtherRow.ofCall_eq_ofLookup ha hlookup] at heq
  cases heq
  obtain ⟨v, hv, hanswers⟩ := OtherRow.exists_evaluates_ofLookup (hmade c hc) ha hlookup hrows
  refine ⟨v, hv, c, a, lookup, value, rfl, hvalue, fun i current hcurrent => ?_⟩
  have hi := (List.getElem?_eq_some_iff.mp hcurrent).1
  exact OtherRow.exists_isAnswer hvalue (hanswers i hi current hcurrent)

/-! ## Values -/

/-- **LEAD and LAG are exact.** For every accepted group of calls of LEAD and LAG, every partition
and every row of it, a call answers with its value on the row that lies as many rows ahead (LEAD)
or behind (LAG) as its distance on this row says, counted in unbounded integers, and with its
default on this row where there is no such row or no distance. -/
theorem values_over_lookups {position : Nat} {rows : List Row} {store : RowStore}
    (hcheck : g.check position types (Registry.builtin : Registry σ) = .ok ())
    (hmode : g.mode = .offset) (hmade : ∀ c ∈ g.calls, c.IsMade)
    (hrows : ∀ row ∈ rows, Row.Conforms row types) (hstore : store.Holds rows) :
    ∃ values, g.values (Registry.builtin : Registry σ) store = .ok values ∧
      values.length = rows.length ∧
      ∀ (i k : Nat) (current v : Row) (c : Call), rows[i]? = some current → values[i]? = some v →
        g.calls[k]? = some c → ∃ x lookup value, v[k]? = some x ∧ c.lookup = some lookup ∧
          c.value? = some value ∧
          (c.name = "LEAD" ∧ lookup.direction = .forward ∨
            c.name = "LAG" ∧ lookup.direction = .backward) ∧
          lookup.IsAnswer value rows i current x := by
  obtain ⟨-, hlookups, -⟩ := accepted_of_check hcheck
  obtain ⟨frames, hframes, hready⟩ := exists_frames hcheck fun _ => hmade
  obtain ⟨v, hv⟩ := exists_forall_mem
    ((hlookups hmode).exists_looksUp hmode hframes hmade hrows)
  have hvalues : g.values Registry.builtin store = _ :=
    values_eq hframes (fun f hf => (hready f hf).renew_eq) (fun f hf => (hv f hf).1) hstore
  refine ⟨_, hvalues, by simp, fun i k current u c hcurrent hu hc => ?_⟩
  have hi := (List.getElem?_eq_some_iff.mp hcurrent).1
  rw [List.getElem?_map, List.getElem?_range hi] at hu
  cases hu
  -- the frame of the call is the one at its place, and each frame brings one value
  obtain ⟨a, lookup, hlookup, hf⟩ := (hlookups hmode).getElem?_frames hmode hframes hc
  obtain ⟨-, c', a', lookup', value, heq, hvalue, hanswers⟩ := hv _ (List.mem_of_getElem? hf)
  obtain ⟨hvalue', rfl⟩ := OtherRow.eq_of_ofLookup_eq (Frame.otherRow.inj heq)
  obtain ⟨x, hx, hanswer⟩ := hanswers i current hcurrent
  have hsingle : ∀ f ∈ frames, ∃ y, v f i = [y] := by
    intro f hmem
    obtain ⟨-, _, _, _, _, -, -, hall⟩ := hv f hmem
    exact (hall i current hcurrent).imp fun _ => And.left
  exact ⟨x, lookup, value, getElem?_flatten_map hsingle hf hx, hlookup.lookup_eq,
    hvalue'.trans hvalue, (hmade c (List.mem_of_getElem? hc)).direction_eq hlookup.lookup_eq,
    hanswer⟩

/-- `LEAD($0, $1, -1), LAG($0, $1, $0) OVER ()`. -/
def leadAndLag : WindowGroup :=
  { partition := [], calls := [.lead 0 (.field 1) (.literal (.integer (-1))),
    .lag 0 (.field 1) (.field 0)] }

/-- Distances that look ahead, back, past the end as far as can be, and nowhere. -/
def leadAndLagRows : List Row :=
  [[.integer 10, .integer 2], [.integer 20, .integer (-1)], [.integer 30, .integer Int64.minValue],
    [.integer 40, .null .integer]]

theorem values_over_lookups_leadAndLag :
    ∃ values, leadAndLag.values (Registry.builtin : Registry Empty)
        { options := {}, rows := leadAndLagRows.toArray } = .ok values ∧ values.length = 4 ∧
      ∀ (i k : Nat) (current v : Row) (c : Call), leadAndLagRows[i]? = some current →
        values[i]? = some v → leadAndLag.calls[k]? = some c → ∃ x lookup value,
          v[k]? = some x ∧ c.lookup = some lookup ∧ c.value? = some value ∧
          (c.name = "LEAD" ∧ lookup.direction = .forward ∨
            c.name = "LAG" ∧ lookup.direction = .backward) ∧
          lookup.IsAnswer value leadAndLagRows i current x := by
  have hmade : ∀ c ∈ leadAndLag.calls, c.IsMade := by
    intro c hc
    rcases List.mem_pair.mp hc with rfl | rfl
    · exact ⟨"LEAD", _, rfl⟩
    · exact ⟨"LAG", _, rfl⟩
  exact @values_over_lookups _ [.integer, .integer] leadAndLag 0 leadAndLagRows _ rfl rfl hmade
    (by decide) (RowStore.holds_of_spill_eq_none rfl rfl)

example : leadAndLag.values (Registry.builtin : Registry Empty)
    { options := {}, rows := leadAndLagRows.toArray } =
    .ok [[.integer 30, .integer 10], [.integer 10, .integer 30], [.integer (-1), .integer 30],
      [.integer (-1), .integer 40]] := by
  decide +kernel

end WindowGroup

end SqlWindow
