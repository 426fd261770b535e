import SqlWindow.Proofs.Function.Aggregate
import SqlWindow.Proofs.Function.Calls
import SqlWindow.Proofs.Value.TotalOrder

set_option autoImplicit false

/-! # MIN and MAX of the values held

On values whose order is transitive the bag of MIN and MAX holds, after any calls, what came in
and has not gone out again, counted up to `Value.same`. So the result is a least or a greatest of
these values, and taking back a value that is not held fails and changes nothing.

An entry keeps the value that opened it. It is reported for as long as a value that is the same is
held, also when it has gone out itself.
-/

namespace SqlWindow

/-- MIN or MAX. -/
inductive Extreme where
  | least
  | greatest
deriving DecidableEq, Repr

namespace Extreme

open Value (present)
open ValueCall (behind held Finds NoneFails Opens)

variable {σ : Type} {S : Value → Prop} {e : Extreme} {bag : ValueBag} {vs : List Value} {v : Value}
  {alike : Value → Value → Bool} {calls : List ValueCall}

/-- The function with its bag. -/
def function : Extreme → ValueBag → Accumulator σ
  | least => .min
  | greatest => .max

/-- The end of a bag that the function reports. -/
def endOf : Extreme → ValueBag → Value
  | least => ValueBag.least
  | greatest => ValueBag.greatest

/-- How a value compares with one that is nearer to the end. -/
def beyond : Extreme → Ordering
  | least => .gt
  | greatest => .lt

@[simp] theorem result_function : (e.function bag : Accumulator σ).result = e.endOf bag := by
  cases e <;> rfl

@[simp] theorem reset_function : (e.function bag : Accumulator σ).reset = e.function [] := by
  cases e <;> rfl

theorem accumulate_function : (e.function bag : Accumulator σ).accumulate v =
    e.function (if v.isNull then bag else bag.insert v) := by
  cases e <;> rfl

theorem retract_function : Accumulator.retract v (e.function bag : Accumulator σ) =
    if v.isNull then .ok () (e.function bag)
    else match bag.remove v with
      | .ok bag => .ok () (e.function bag)
      | .error error => .error error (e.function bag) := by
  cases e <;> rfl

/-! ## Calls -/

/-- **A value comes in.** An entry that is new stands for it, and then no value held is the same. -/
theorem exists_accumulate (hS : Value.TransitiveOn S) (h : ValueBag.Holds S bag (present vs))
    (hv : S v) :
    ∃ rest, (ValueCall.accumulate v).perform.outcome (e.function bag : Accumulator σ) =
        (.ok (), e.function rest) ∧ ValueBag.Holds S rest (present (vs ++ [v])) ∧
      ∀ p ∈ rest, (∃ q ∈ bag, q.1 = p.1) ∨ p.1 = v ∧ ¬∃ w ∈ vs, v.same w = true := by
  refine ⟨if v.isNull then bag else bag.insert v, ?_, ?_⟩
  · rw [← accumulate_function]
    rfl
  cases hnull : v.isNull with
  | true =>
    refine ⟨?_, fun p hp => .inl ⟨p, hp, rfl⟩⟩
    simpa [present, hnull] using h
  | false =>
    refine ⟨?_, fun p hp => ?_⟩
    · have hinsert : ValueBag.Holds S (bag.insert v) (present vs ++ [v]) := h.insert hS hv
      simpa [present, hnull] using hinsert
    · by_cases hheld : ∃ q ∈ bag, v.order q.1 = .eq
      · exact .inl (ValueBag.mem_insert_of_held hS h.sorted hv hheld hp)
      · refine (ValueBag.mem_insert hp).symm.imp_right fun heq => ⟨heq, ?_⟩
        rintro ⟨w, hw, hsame⟩
        have hpresent : w ∈ present vs := Value.mem_present_of_same hnull hw hsame
        obtain ⟨q, hq, hqw⟩ := h.exists_entry hpresent
        refine hheld ⟨q, hq, ?_⟩
        rw [Value.same_iff_order_eq] at hsame
        rw [hS.order_congr_right hv (h.sorted.mem q hq) (h.mem w hpresent) hqw, hsame]

/-- **A value goes out** that is held, or NULL: no entry is opened. -/
theorem exists_retract (hS : Value.TransitiveOn S) (h : ValueBag.Holds S bag (present vs))
    (hv : S v) (halike : ∀ v w, alike v w = true → v.same w = true)
    (hheld : v.isNull = false → ∃ w ∈ vs, alike v w = true) :
    ∃ rest, (ValueCall.retract v).perform.outcome (e.function bag : Accumulator σ) =
        (.ok (), e.function rest) ∧ ValueBag.Holds S rest (present (vs.eraseP (alike v))) ∧
      ∀ p ∈ rest, ∃ q ∈ bag, q.1 = p.1 := by
  rw [Action.outcome, ValueCall.perform, retract_function]
  by_cases hfound : ∃ w ∈ vs, alike v w = true
  · obtain ⟨w, hw, hperm⟩ := ValueCall.exists_perm_eraseP hfound
    have hsame : v.same w = true := halike v w hw
    have hpresent : (present vs).Perm (present (w :: vs.eraseP (alike v))) := hperm.filter _
    cases hnull : v.isNull with
    | true =>
      refine ⟨bag, rfl, ?_, fun p hp => ⟨p, hp, rfl⟩⟩
      have hskip : present (w :: vs.eraseP (alike v)) = present (vs.eraseP (alike v)) :=
        List.filter_cons_of_neg (by simp [← Value.isNull_eq_of_same hsame, hnull])
      rw [hskip] at hpresent
      exact h.perm hpresent
    | false =>
      have hkeep : present (w :: vs.eraseP (alike v)) = w :: present (vs.eraseP (alike v)) :=
        List.filter_cons_of_pos (by simp [← Value.isNull_eq_of_same hsame, hnull])
      rw [hkeep] at hpresent
      obtain ⟨rest, hremove, hholds, hentries⟩ :=
        (h.perm hpresent).remove_of_order_eq hS hv ((Value.same_iff_order_eq v w).mp hsame)
      exact ⟨rest, by rw [hremove]; rfl, hholds, hentries⟩
  · -- Only NULL may go out without being held, and it does not count.
    have hnull : v.isNull = true := by
      by_contra hnot
      exact hfound (hheld (Bool.eq_false_iff.mpr hnot))
    rw [ValueCall.eraseP_eq_self hfound, hnull]
    exact ⟨bag, rfl, h, fun p hp => ⟨p, hp, rfl⟩⟩

/-- The error of taking back a value that is not held. -/
def neverAccumulated (v : Value) : Error :=
  .internal s!"retracted value {v.display} was never accumulated"

/-- **A value does not go out** that is not held. -/
theorem outcome_retract_of_not_held (hS : Value.TransitiveOn S)
    (h : ValueBag.Holds S bag (present vs)) (hv : S v) (hnull : v.isNull = false)
    (hheld : ¬∃ w ∈ vs, v.same w = true) :
    (ValueCall.retract v).perform.outcome (e.function bag : Accumulator σ) =
      (.error (neverAccumulated v), e.function bag) := by
  have hpresent : ¬∃ w ∈ present vs, v.same w = true := by
    rintro ⟨w, hw, hsame⟩
    exact hheld ⟨w, (List.mem_filter.mp hw).1, hsame⟩
  rw [Action.outcome, ValueCall.perform, retract_function, hnull, h.remove_eq_error hS hv hpresent]
  rfl

/-! ## Histories -/

/-- **Any calls.** The bag holds what came in and has not gone out. -/
theorem exists_bag_behind (hS : Value.TransitiveOn S) (hcalls : ∀ call ∈ calls, S call.value) :
    ∃ bag, behind (e.function [] : Accumulator σ) calls = e.function bag ∧
      ValueBag.Holds S bag (present (held Value.same calls)) := by
  induction calls using List.reverseRecOn with
  | nil => exact ⟨[], rfl, ValueBag.holds_nil S⟩
  | append_singleton calls call ih =>
    obtain ⟨hfront, hcall⟩ := ValueCall.forall_value_concat_iff.mp hcalls
    obtain ⟨bag, hbag, hholds⟩ := ih hfront
    rw [ValueCall.behind_concat, ValueCall.held_concat, hbag]
    cases call with
    | accumulate v =>
      have hv : S v := hcall
      obtain ⟨rest, houtcome, hrest, -⟩ := exists_accumulate (σ := σ) (e := e) hS hholds hv
      exact ⟨rest, by rw [houtcome], hrest⟩
    | retract v =>
      have hv : S v := hcall
      by_cases hheld : v.isNull = false → ∃ w ∈ held Value.same calls, v.same w = true
      · obtain ⟨rest, houtcome, hrest, -⟩ :=
          exists_retract (σ := σ) (e := e) hS hholds hv (fun _ _ hsame => hsame) hheld
        exact ⟨rest, by rw [houtcome], hrest⟩
      · obtain ⟨hnull, hnot⟩ := Classical.not_imp.mp hheld
        have houtcome := outcome_retract_of_not_held (σ := σ) (e := e) hS hholds hv hnull hnot
        have hsame : ValueCall.next Value.same (held Value.same calls) (.retract v) =
            held Value.same calls := ValueCall.eraseP_eq_self hnot
        rw [houtcome, hsame]
        exact ⟨bag, rfl, hholds⟩

/-- An entry that was there before still opens, for what is in the bag is held. -/
theorem opens_of_entry {rest : ValueBag} {call : ValueCall} {p : Value × ℕ}
    (hopens : ∀ q ∈ bag, Opens alike calls q.1)
    (hrest : ValueBag.Holds S rest (present (held alike (calls ++ [call])))) (hp : p ∈ rest)
    (hentry : ∃ q ∈ bag, q.1 = p.1) : Opens alike (calls ++ [call]) p.1 := by
  obtain ⟨q, hq, heq⟩ := hentry
  have hopened : Opens alike calls p.1 := heq ▸ hopens q hq
  obtain ⟨w, hw, hpw⟩ := hrest.exists_mem hp
  exact hopened.concat ⟨w, (List.mem_filter.mp hw).1, (Value.same_iff_order_eq p.1 w).mpr hpw⟩

/-- **Calls that take back what is held.** They do not fail, and each entry keeps the value that
opened it. -/
theorem exists_bag_opened (hS : Value.TransitiveOn S)
    (halike : ∀ v w, alike v w = true → v.same w = true) (h : Finds alike calls)
    (hcalls : ∀ call ∈ calls, S call.value) :
    ∃ bag, behind (e.function [] : Accumulator σ) calls = e.function bag ∧
      ValueBag.Holds S bag (present (held alike calls)) ∧ (∀ p ∈ bag, Opens alike calls p.1) ∧
      NoneFails (e.function [] : Accumulator σ) calls := by
  induction h with
  | nil => exact ⟨[], rfl, ValueBag.holds_nil S, by simp, ValueCall.noneFails_nil⟩
  | @accumulate calls v _ ih =>
    obtain ⟨hfront, (hv : S v)⟩ := ValueCall.forall_value_concat_iff.mp hcalls
    obtain ⟨bag, hbag, hholds, hopens, hnone⟩ := ih hfront
    obtain ⟨rest, houtcome, hrest, hentries⟩ := exists_accumulate (σ := σ) (e := e) hS hholds hv
    rw [← hbag] at houtcome
    have hheld : ValueBag.Holds S rest (present (held alike (calls ++ [.accumulate v]))) := by
      rw [ValueCall.held_concat]
      exact hrest
    refine ⟨rest, ?_, hheld, fun p hp => ?_, hnone.concat (by rw [houtcome])⟩
    · rw [ValueCall.behind_concat, houtcome]
    · rcases hentries p hp with hentry | ⟨heq, hnot⟩
      · exact opens_of_entry hopens hheld hp hentry
      · rw [heq]
        exact ValueCall.opens_accumulate ((Value.same_iff_order_eq v v).mpr v.order_self) hnot
  | @retract calls v _ hfound ih =>
    obtain ⟨hfront, (hv : S v)⟩ := ValueCall.forall_value_concat_iff.mp hcalls
    obtain ⟨bag, hbag, hholds, hopens, hnone⟩ := ih hfront
    obtain ⟨rest, houtcome, hrest, hentries⟩ :=
      exists_retract (σ := σ) (e := e) hS hholds hv halike hfound
    rw [← hbag] at houtcome
    have hheld : ValueBag.Holds S rest (present (held alike (calls ++ [.retract v]))) := by
      rw [ValueCall.held_concat]
      exact hrest
    refine ⟨rest, ?_, hheld, fun p hp => ?_, hnone.concat (by rw [houtcome])⟩
    · rw [ValueCall.behind_concat, houtcome]
    · exact opens_of_entry hopens hheld hp (hentries p hp)

/-- The counts behind it: what came in and has not gone out is held, for all values that are the
same taken together. -/
theorem countP_held (hS : Value.TransitiveOn S) (h : Finds Value.same calls)
    (hcalls : ∀ call ∈ calls, S call.value) (hv : S v) (hnull : v.isNull = false) :
    (held Value.same calls).countP v.same + calls.countP (ValueCall.takesBack v) =
      calls.countP (ValueCall.takesIn v) := by
  induction h with
  | nil => rfl
  | @accumulate calls w _ ih =>
    obtain ⟨hfront, -⟩ := ValueCall.forall_value_concat_iff.mp hcalls
    have hcount := ih hfront
    have hin : (held Value.same (calls ++ [.accumulate w])).countP v.same =
        (held Value.same calls).countP v.same + if v.same w then 1 else 0 := by
      rw [ValueCall.held_concat, ValueCall.next, List.countP_append, List.countP_singleton]
    rw [hin, ValueCall.countP_takesBack_accumulate, ValueCall.countP_takesIn_accumulate]
    omega
  | @retract calls w _ hfound ih =>
    obtain ⟨hfront, (hw : S w)⟩ := ValueCall.forall_value_concat_iff.mp hcalls
    have hcount := ih hfront
    have hout : (held Value.same (calls ++ [.retract w])).countP v.same +
        (if v.same w then 1 else 0) = (held Value.same calls).countP v.same := by
      rw [ValueCall.held_concat, ValueCall.next]
      by_cases hheld : ∃ u ∈ held Value.same calls, w.same u = true
      · obtain ⟨u, hwu, hperm⟩ := ValueCall.exists_perm_eraseP hheld
        have hu : S u := hfront _ (ValueCall.accumulate_mem_of_mem_held
          (hperm.mem_iff.mpr List.mem_cons_self))
        rw [hperm.countP_eq, List.countP_cons, hS.same_congr_right hv hw hu hwu]
      · rw [ValueCall.eraseP_eq_self hheld, if_neg, Nat.add_zero]
        intro hvw
        rw [Value.isNull_eq_of_same hvw] at hnull
        exact hheld (hfound hnull)
    rw [ValueCall.countP_takesBack_retract, ValueCall.countP_takesIn_retract]
    omega

/-! ## Results -/

/-- A bag that holds something reports an end of it. -/
theorem isEnd_endOf (hS : Value.TransitiveOn S) (h : ValueBag.Holds S bag vs) (hne : vs ≠ []) :
    S (e.endOf bag) ∧ ValueBag.IsEnd e.beyond (e.endOf bag) vs := by
  cases e with
  | least => exact h.least hS hne
  | greatest => exact h.greatest hS hne

/-- What it reports is the same as a value held beyond which there is none. -/
theorem exists_end (hS : Value.TransitiveOn S) (h : ValueBag.Holds S bag vs) (hne : vs ≠ []) :
    ∃ m ∈ vs, (∀ w ∈ vs, m.order w ≠ e.beyond) ∧ (e.endOf bag).same m = true := by
  obtain ⟨hend, ⟨m, hm, heq⟩, hbeyond⟩ := isEnd_endOf (e := e) hS h hne
  refine ⟨m, hm, fun w hw => ?_, (Value.same_iff_order_eq _ m).mpr heq⟩
  rw [← hS.order_congr_left hend (h.mem m hm) (h.mem w hw) heq]
  exact hbeyond w hw

/-- It reports the value of an entry. -/
theorem exists_entry_endOf (hne : bag ≠ []) : ∃ p ∈ bag, e.endOf bag = p.1 := by
  cases e with
  | least =>
    cases bag with
    | nil => exact absurd rfl hne
    | cons p rest => exact ⟨p, List.mem_cons_self, rfl⟩
  | greatest =>
    refine ⟨bag.getLast hne, List.getLast_mem hne, ?_⟩
    rw [endOf, ValueBag.greatest, List.getLast?_eq_some_getLast hne]

theorem endOf_nil : e.endOf [] = .unknown := by
  cases e <;> rfl

/-- **MIN and MAX of the values held.** On values whose order is transitive, behind any calls on a
new or a reset function: if values were taken back only while a value that is the same was held,
no call has failed, and what is held is what came in more often than it went out; the result is
the same as a least or a greatest value held, and NULL if there is none; and taking back a value
that is not held fails, changes nothing, and leaves what is held. -/
theorem result_of_held (hS : Value.TransitiveOn S) (used : ValueBag) {start : Accumulator σ}
    (hstart : start = e.function [] ∨ start = (e.function used).reset)
    (hcalls : ∀ call ∈ calls, S call.value) :
    let vs := present (held Value.same calls)
    let a := behind start calls
    (Finds Value.same calls → NoneFails start calls ∧ ∀ v, S v → v.isNull = false →
      vs.countP v.same + calls.countP (ValueCall.takesBack v) =
        calls.countP (ValueCall.takesIn v)) ∧
    (vs = [] → a.result = .unknown) ∧
    (vs ≠ [] → ∃ m ∈ vs, (∀ w ∈ vs, m.order w ≠ e.beyond) ∧ a.result.same m = true) ∧
    ∀ v, S v → v.isNull = false → (¬∃ w ∈ vs, v.same w = true) →
      (ValueCall.retract v).perform.outcome a = (.error (neverAccumulated v), a) ∧
      held Value.same (calls ++ [.retract v]) = held Value.same calls := by
  obtain rfl : start = e.function [] := hstart.elim id fun h => h.trans reset_function
  obtain ⟨bag, hbag, hholds⟩ := exists_bag_behind (σ := σ) (e := e) hS hcalls
  intro vs a
  have ha : a = e.function bag := hbag
  refine ⟨fun hfinds => ⟨?_, ?_⟩, ?_, ?_, ?_⟩
  · obtain ⟨-, -, -, -, hnone⟩ :=
      exists_bag_opened (σ := σ) (e := e) hS (fun _ _ hsame => hsame) hfinds hcalls
    exact hnone
  · intro v hv hnull
    rw [Value.countP_present hnull]
    exact countP_held hS hfinds hcalls hv hnull
  · intro hnil
    rw [ha, result_function, hholds.eq_nil_iff.mpr hnil, endOf_nil]
  · intro hne
    rw [ha, result_function]
    exact exists_end hS hholds hne
  · intro v hv hnull hnot
    have hheld : ¬∃ w ∈ held Value.same calls, v.same w = true := by
      rintro ⟨w, hw, hsame⟩
      exact hnot ⟨w, Value.mem_present_of_same hnull hw hsame, hsame⟩
    rw [ha]
    refine ⟨outcome_retract_of_not_held hS hholds hv hnull hheld, ?_⟩
    rw [ValueCall.held_concat]
    exact ValueCall.eraseP_eq_self hheld

/-- Zero comes in as an integer and as a float, and the integer goes out again. -/
def zeros : List ValueCall :=
  [.accumulate (.integer 0), .accumulate (.float (Double.zero true)), .accumulate (.null .text),
    .retract (.integer 0)]

theorem finds_zeros (h : alike (.integer 0) (.integer 0) = true) : Finds alike zeros := by
  have hnil : Finds alike [] := .nil
  have hfront := ((hnil.accumulate (.integer 0)).accumulate
    (.float (Double.zero true))).accumulate (.null .text)
  exact hfront.retract (.integer 0) fun _ => ⟨.integer 0, List.mem_cons_self, h⟩

/-- The values are some of those on which the order is transitive. -/
theorem mem_oneOfEach_of_mem_zeros : ∀ call ∈ zeros, call.value ∈ Value.oneOfEach := by
  decide +kernel

theorem result_of_held_zeros :
    (∀ call ∈ zeros, call.value ∈ Value.oneOfEach) ∧ Finds Value.same zeros ∧
      NoneFails (least.function [] : Accumulator Unit) zeros ∧
      (∃ m ∈ present (held Value.same zeros),
        (∀ w ∈ present (held Value.same zeros), m.order w ≠ .gt) ∧
          (behind (least.function [] : Accumulator Unit) zeros).result.same m = true) ∧
      (ValueCall.retract (.text "a")).perform.outcome
          (behind (least.function [] : Accumulator Unit) zeros) =
        (.error (.internal "retracted value a was never accumulated"),
          behind (least.function [] : Accumulator Unit) zeros) := by
  have hS := Value.noLargeIntegerByFloat_oneOfEach.transitiveOn
  have hfinds : Finds Value.same zeros := finds_zeros rfl
  obtain ⟨hnone, -, hend, hrefused⟩ :=
    result_of_held (σ := Unit) (e := least) hS [] (.inl rfl) mem_oneOfEach_of_mem_zeros
  refine ⟨mem_oneOfEach_of_mem_zeros, hfinds, (hnone hfinds).1, hend (by decide +kernel), ?_⟩
  exact (hrefused (.text "a") (by simp [Value.oneOfEach]) rfl (by decide +kernel)).1

/-- **What MIN and MAX report.** On values whose order is transitive, behind calls on a new or a
reset function that take back only what is held as it is: a result that is not NULL came in when no
value that is the same was held, and ever since one is, although it may not be this one itself. It
is an end of the values held. Where no other value that is the same came in, it is held itself. -/
theorem result_opened (hS : Value.TransitiveOn S) (used : ValueBag) {start : Accumulator σ}
    (hstart : start = e.function [] ∨ start = (e.function used).reset)
    (hfinds : Finds (· == ·) calls) (hcalls : ∀ call ∈ calls, S call.value) :
    let vs := held (· == ·) calls
    let result := (behind start calls).result
    result.isNull = false →
      Opens (· == ·) calls result ∧
      (∀ w ∈ present vs, result.order w ≠ e.beyond) ∧
      ((∀ w, .accumulate w ∈ calls → result.same w = true → w = result) → result ∈ vs) := by
  obtain rfl : start = e.function [] := hstart.elim id fun h => h.trans reset_function
  have halike : ∀ v w : Value, (v == w) = true → v.same w = true := by
    intro v w heq
    rw [eq_of_beq heq, Value.same_iff_order_eq, Value.order_self]
  obtain ⟨bag, hbag, hholds, hopens, -⟩ :=
    exists_bag_opened (σ := σ) (e := e) hS halike hfinds hcalls
  intro vs result hnull
  have hresult : result = e.endOf bag := by
    show (behind _ calls).result = _
    rw [hbag, result_function]
  have hne : bag ≠ [] := by
    rintro rfl
    rw [hresult, endOf_nil] at hnull
    cases hnull
  obtain ⟨p, hp, hend⟩ := exists_entry_endOf (e := e) hne
  have hopened : Opens (· == ·) calls result := by
    rw [hresult, hend]
    exact hopens p hp
  refine ⟨hopened, fun w hw => ?_, fun honly => ?_⟩
  · obtain ⟨-, -, hbeyond⟩ := isEnd_endOf (e := e) hS hholds (List.ne_nil_of_mem hw)
    rw [hresult]
    exact hbeyond w hw
  · obtain ⟨w, hw, hsame⟩ := hopened.exists_held
    rw [← honly w (ValueCall.accumulate_mem_of_mem_held hw) hsame]
    exact hw

theorem result_opened_zeros :
    (∀ call ∈ zeros, call.value ∈ Value.oneOfEach) ∧ Finds (· == ·) zeros ∧
      Opens (· == ·) zeros (behind (greatest.function [] : Accumulator Unit) zeros).result := by
  have hS := Value.noLargeIntegerByFloat_oneOfEach.transitiveOn
  have hfinds : Finds (· == ·) zeros := finds_zeros rfl
  refine ⟨mem_oneOfEach_of_mem_zeros, hfinds, ?_⟩
  exact (result_opened (e := greatest) hS [] (.inl rfl) hfinds mem_oneOfEach_of_mem_zeros
    (by decide +kernel)).1

/-- The integer is still reported when only the float is held. -/
theorem result_departed :
    Finds (· == ·) zeros ∧ held (· == ·) zeros = [.float (Double.zero true), .null .text] ∧
      (behind (least.function [] : Accumulator Unit) zeros).result = .integer 0 ∧
      (behind (greatest.function [] : Accumulator Unit) zeros).result = .integer 0 :=
  ⟨finds_zeros rfl, by decide +kernel, by decide +kernel, by decide +kernel⟩

end Extreme

end SqlWindow
