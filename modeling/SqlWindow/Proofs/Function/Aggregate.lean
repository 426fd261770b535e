import SqlWindow.Proofs.Function.Contents

set_option autoImplicit false

/-! # What aggregates answer

COUNT, SUM, AVG, MIN and MAX computed at once from all values of a frame, without an accumulator:
the number of values that are not NULL, the exact sum of the integers, cut to 64 bits, and what is
left of it divided by their number, and a least and a greatest value. **An accumulator that holds
these values answers the same**, whatever went in and came out of it before.

Nothing is said of sums of floats, which are rounded at every step, and of functions that are no
aggregates. Of several same values, such as 1 and 1.0, MIN and MAX may answer with any.
-/

namespace SqlWindow

namespace Value

/-- The values that are not NULL. -/
def present (vs : List Value) : List Value := vs.filter fun v => !v.isNull

theorem mem_present_of_same {v w : Value} {vs : List Value} (hnull : v.isNull = false)
    (hw : w ∈ vs) (hsame : v.same w = true) : w ∈ present vs := by
  rw [isNull_eq_of_same hsame] at hnull
  exact List.mem_filter.mpr ⟨hw, by rw [hnull]; rfl⟩

theorem countP_present {v : Value} (hnull : v.isNull = false) (vs : List Value) :
    (present vs).countP v.same = vs.countP v.same := by
  rw [present, List.countP_filter]
  refine List.countP_congr fun w _ => ?_
  cases hsame : v.same w with
  | false => simp
  | true => simp [← isNull_eq_of_same hsame, hnull]

/-- A value that compares as `o` with none of the values: with `.gt` a least one, with `.lt` a
greatest one. -/
def endOf (o : Ordering) : List Value → Option Value
  | [] => none
  | v :: vs =>
    match endOf o vs with
    | none => some v
    | some w => if v.order w = o then some w else some v

variable {S : Value → Prop} {a b c : Value} {vs : List Value}

theorem TransitiveOn.ne_trans (h : TransitiveOn S) {o : Ordering} (ho : o ≠ .eq) (ha : S a)
    (hb : S b) (hc : S c) (hab : a.order b ≠ o) (hbc : b.order c ≠ o) : a.order c ≠ o := by
  have hswap (v w : Value) : (w.order v).isLE ↔ v.order w ≠ .lt := by
    rw [order_swap v w]
    cases v.order w <;> decide
  have hle (v w : Value) : (v.order w).isLE ↔ v.order w ≠ .gt := by
    cases v.order w <;> decide
  cases o with
  | eq => exact absurd rfl ho
  | gt => exact (hle a c).mp (h ha hb hc ((hle a b).mpr hab) ((hle b c).mpr hbc))
  | lt => exact (hswap a c).mp (h hc hb ha ((hswap b c).mpr hbc) ((hswap a b).mpr hab))

theorem isEnd_endOf (hS : TransitiveOn S) {o : Ordering} (ho : o ≠ .eq) (hvs : ∀ v ∈ vs, S v)
    (hne : vs ≠ []) : ∃ m, endOf o vs = some m ∧ m ∈ vs ∧ ValueBag.IsEnd o m vs := by
  have hself (v : Value) : v.order v ≠ o := by
    rw [order_self]
    exact ho.symm
  suffices h : ∃ m, endOf o vs = some m ∧ m ∈ vs ∧ ∀ w ∈ vs, m.order w ≠ o by
    obtain ⟨m, hend, hmem, hall⟩ := h
    exact ⟨m, hend, hmem, ⟨m, hmem, order_self m⟩, hall⟩
  induction vs with
  | nil => exact absurd rfl hne
  | cons v vs ih =>
    obtain ⟨hv, hrest⟩ := List.forall_mem_cons.mp hvs
    -- A list of one value is the base case: of no values there is no end.
    cases vs with
    | nil => exact ⟨v, rfl, List.mem_cons_self, fun w hw => List.mem_singleton.mp hw ▸ hself v⟩
    | cons u us =>
      obtain ⟨m, hend, hmem, hall⟩ := ih hrest (List.cons_ne_nil u us)
      have hm : S m := hrest m hmem
      rw [endOf, hend]
      by_cases hvm : v.order m = o
      · refine ⟨m, if_pos hvm, List.mem_cons_of_mem v hmem, List.forall_mem_cons.mpr ⟨?_, hall⟩⟩
        rw [order_swap, hvm]
        cases o <;> first | exact absurd rfl ho | decide
      · refine ⟨v, if_neg hvm, List.mem_cons_self, List.forall_mem_cons.mpr ⟨hself v, ?_⟩⟩
        exact fun w hw => hS.ne_trans ho hv hm (hrest w hw) hvm (hall w hw)

end Value

namespace Aggregate

open RunningSum (AnyInteger)
open Value (present endOf integerSum)

/-- What the function of this name answers over the values `vs`, all NULL or of the type. SUM is the
exact sum of the integers, cut to 64 bits, and AVG is this number divided by that of the integers,
both as doubles. Without an integer both are NULL. -/
def IsAnswer (type : DataType) (vs : List Value) (v : Value) : (name : String) → Prop
  | "COUNT" => v = .integer (Int64.ofNat (present vs).length)
  | "SUM" => type = .integer →
    v = if AnyInteger vs then .integer (Int64.ofInt (integerSum vs)) else .unknown
  | "AVG" => type = .integer →
    v = if AnyInteger vs then
        .float ((Double.ofInt64 (Int64.ofInt (integerSum vs))).div
          (Double.ofInt (vs.countP Value.isInteger)))
      else .unknown
  | "MIN" => v.same ((endOf .gt (present vs)).getD .unknown) = true
  | "MAX" => v.same ((endOf .lt (present vs)).getD .unknown) = true
  | _ => True

end Aggregate

namespace Accumulator

open RunningSum (AnyFloat AnyInteger)
open Value (present endOf)

variable {σ : Type} {type : DataType} {vs : List Value} {a : Accumulator σ}

theorem not_anyFloat (hvs : ∀ v ∈ vs, v.Conforms .integer) : ¬AnyFloat vs := by
  rintro ⟨v, hv, hfloat⟩
  cases v with
  | float x => rcases hvs _ hv with hnull | hinteger <;> contradiction
  | _ => cases hfloat

/-- An end of a bag is one of the values held. -/
theorem same_endOf {o : Ordering} (ho : o ≠ .eq) (hvs : ∀ v ∈ vs, v.Conforms type) {v : Value}
    (hnil : present vs = [] → v = .unknown)
    (hend : present vs ≠ [] → v.Conforms type ∧ ValueBag.IsEnd o v (present vs)) :
    v.same ((endOf o (present vs)).getD .unknown) = true := by
  have hS := Value.transitiveOn_conforms type
  have hpresent : ∀ v ∈ present vs, v.Conforms type := fun v hv => hvs v (List.mem_filter.mp hv).1
  by_cases hne : present vs = []
  · rw [hnil hne, hne]
    rfl
  · obtain ⟨hv, hvend⟩ := hend hne
    obtain ⟨m, hm, hmem, hmend⟩ := Value.isEnd_endOf hS ho hpresent hne
    rw [hm]
    exact ValueBag.IsEnd.same hS ho hpresent hv (hpresent m hmem) hvend hmend

/-- **What a function holds determines its result.** -/
theorem Holds.isAnswer (h : a.Holds type vs) (hvs : ∀ v ∈ vs, v.Conforms type) :
    Aggregate.IsAnswer type vs a.result a.name := by
  have hS := Value.transitiveOn_conforms type
  cases a with
  | count n =>
    have hn : n = vs.countP fun v => !v.isNull := h
    show Value.integer (Int64.ofNat n) = _
    rw [hn, List.countP_eq_length_filter]
    rfl
  | sum s =>
    rintro rfl
    have hholds : s.Holds vs := h
    have hfloat := not_anyFloat hvs
    show s.total = ite _ _ _
    by_cases hinteger : AnyInteger vs
    · rw [if_pos hinteger, hholds.total_of_anyInteger hinteger hfloat]
    · rw [if_neg hinteger, hholds.total_of_none hinteger hfloat]
  | avg s =>
    rintro rfl
    have hholds : s.Holds vs := h
    have hfloat := not_anyFloat hvs
    show s.mean = ite _ _ _
    by_cases hinteger : AnyInteger vs
    · rw [if_pos hinteger, hholds.mean_of_anyInteger hinteger hfloat]
    · rw [if_neg hinteger, hholds.mean_of_none hinteger hfloat]
  | min bag =>
    have hbag : ValueBag.Holds _ bag _ := h
    exact same_endOf (by decide) hvs (fun hnil => by rw [hbag.eq_nil_iff.mpr hnil]; rfl)
      (hbag.least hS)
  | max bag =>
    have hbag : ValueBag.Holds _ bag _ := h
    exact same_endOf (by decide) hvs (fun hnil => by rw [hbag.eq_nil_iff.mpr hnil]; rfl)
      (hbag.greatest hS)
  | user => exact h.elim
  | _ => trivial

end Accumulator

end SqlWindow
