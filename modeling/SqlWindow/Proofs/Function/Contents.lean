import SqlWindow.Proofs.Function.Forgets
import SqlWindow.Proofs.Function.RunningSum
import SqlWindow.Proofs.Function.ValueBag

set_option autoImplicit false

/-! # What an accumulator holds

`Accumulator.Holds type vs a` says that the built-in function `a` has taken in the values `vs`
of a column of one type: values taken in and given back again leave no trace in what is said
here.

`Accumulator.renew` is what the function was configured to be. No step of an accumulator changes
it, and after a reset and a window size nothing else is left.
-/

namespace SqlWindow

namespace Accumulator

variable {σ : Type}

/-! ## Built-in functions -/

/-- The function is a built-in one. -/
def IsBuiltin : Accumulator σ → Prop
  | user _ _ => False
  | _ => True

/-- The function is LEAD or LAG. -/
def IsLookup : Accumulator σ → Prop
  | lead _ | lag _ => True
  | _ => False

variable {a b : Accumulator σ}

theorem IsLookup.isBuiltin (h : a.IsLookup) : a.IsBuiltin := by
  cases a <;> trivial

/-- The accumulator is as new: nothing but its configuration is left. -/
def IsNew (a : Accumulator σ) : Prop := a.IsBuiltin ∧ a.renew = a

@[simp] theorem isBuiltin_renew : a.renew.IsBuiltin ↔ a.IsBuiltin := by
  cases a <;> exact Iff.rfl

@[simp] theorem isLookup_renew : a.renew.IsLookup ↔ a.IsLookup := by
  cases a <;> exact Iff.rfl

theorem supportsRetract_renew (h : a.IsBuiltin) : a.renew.supportsRetract = a.supportsRetract := by
  cases a <;> first | rfl | exact h.elim

theorem isSizeSensitive_renew (h : a.IsBuiltin) :
    a.renew.isSizeSensitive = a.isSizeSensitive := by
  cases a <;> first | rfl | exact h.elim

/-! ## Steps and the configuration -/

theorem IsBuiltin.forgets (h : a.IsBuiltin) : a.Forgets := by
  cases a
  case user => exact h.elim
  all_goals trivial

theorem renew_reset (h : a.IsBuiltin) : a.reset.renew = a.renew := by
  cases a <;> first | rfl | exact h.elim

/-- The configuration is what a reset leaves, or part of it. -/
theorem renew_eq_of_reset_eq (h : a.IsBuiltin) (hab : b.reset = a.reset) : b.renew = a.renew := by
  have hb : b.IsBuiltin := by
    cases b
    case user => cases a <;> first | exact h.elim | cases hab
    all_goals trivial
  rw [← renew_reset h, ← renew_reset hb, hab]

theorem renew_accumulate (h : a.IsBuiltin) (v : Value) : (a.accumulate v).renew = a.renew :=
  renew_eq_of_reset_eq h (reset_accumulate h.forgets v)

theorem renew_setWindowSize (h : a.IsBuiltin) (size : Nat) :
    (a.setWindowSize size).renew = a.renew := by
  cases a <;> first | rfl | exact h.elim

/-- Whether taking a value back succeeds or not. -/
theorem renew_retract (h : a.IsBuiltin) (v : Value) :
    ((retract v).outcome a).2.renew = a.renew :=
  renew_eq_of_reset_eq h (reset_retract h.forgets v)

/-- What `r` makes of a function is `b`, and no value that comes in or goes out changes that,
nor does a reset. -/
structure Keeps (r : Accumulator σ → Accumulator σ) (b : Accumulator σ) : Prop where
  accumulate : ∀ a, r a = b → ∀ v, r (a.accumulate v) = b
  retract : ∀ a, r a = b → ∀ v, r ((retract v).outcome a).2 = b
  reset : ∀ a, r a = b → r a.reset = b

theorem keeps_renew (h : b.IsBuiltin) : Keeps renew b where
  accumulate a ha v := by
    subst ha
    exact renew_accumulate (isBuiltin_renew.mp h) v
  retract a ha v := by
    subst ha
    exact renew_retract (isBuiltin_renew.mp h) v
  reset a ha := by
    subst ha
    exact renew_reset (isBuiltin_renew.mp h)

/-- A window size means nothing to a function that does not depend on it. -/
theorem setWindowSize_of_not_isSizeSensitive (h : a.IsBuiltin) (hsize : a.isSizeSensitive = false)
    (size : Nat) : a.setWindowSize size = a := by
  cases a <;> first | rfl | exact h.elim | cases hsize

/-- **A partition starts alike.** What a function is after a reset and a window size depends on
its configuration alone. -/
theorem setWindowSize_reset_congr (h : a.IsBuiltin) (hab : a.renew = b.renew) (size : Nat) :
    a.reset.setWindowSize size = b.reset.setWindowSize size := by
  cases a <;> cases b <;> first | exact h.elim | rfl | cases hab | skip
  rename_i s t
  have hbuckets : s.buckets = t.buckets := by
    simpa [renew] using hab
  simp [reset, Accumulator.setWindowSize, hbuckets]

theorem reset_congr_of_isLookup (h : a.IsLookup) (hab : a.renew = b.renew) :
    a.reset = b.reset := by
  cases a <;> cases b <;> first | exact h.elim | rfl | cases hab

/-! ## Contents -/

/-- The function has taken in the values `vs`, all NULL or of the type. -/
def Holds (type : DataType) (vs : List Value) : Accumulator σ → Prop
  | count n => n = vs.countP fun v => !v.isNull
  | sum s | avg s => s.Holds vs
  | min bag | max bag => ValueBag.Holds (Value.Conforms · type) bag (vs.filter fun v => !v.isNull)
  | cumeDist s => s.seen = vs.length
  | ntile s => s.seen = Int64.ofNat vs.length
  | lead _ | lag _ => True
  | user _ _ => False

variable {type : DataType} {vs : List Value} {v : Value}

theorem Holds.isBuiltin (h : a.Holds type vs) : a.IsBuiltin := by
  cases a <;> trivial

theorem holds_reset (h : a.IsBuiltin) : a.reset.Holds type [] := by
  cases a with
  | count => rfl
  | sum => exact RunningSum.holds_nil
  | avg => exact RunningSum.holds_nil
  | min => exact ValueBag.holds_nil _
  | max => exact ValueBag.holds_nil _
  | user => exact h.elim
  | cumeDist => rfl
  | ntile => rfl
  | lead => trivial
  | lag => trivial

theorem Holds.setWindowSize (h : a.Holds type vs) (size : Nat) :
    (a.setWindowSize size).Holds type vs := by
  cases a <;> exact h

theorem Holds.accumulate (h : a.Holds type vs) (hv : v.Conforms type) :
    (a.accumulate v).Holds type (vs ++ [v]) := by
  have hbag (bag : ValueBag)
      (hbag : ValueBag.Holds (Value.Conforms · type) bag (vs.filter fun v => !v.isNull)) :
      ValueBag.Holds (Value.Conforms · type) (if v.isNull then bag else bag.insert v)
        ((vs ++ [v]).filter fun v => !v.isNull) := by
    rw [List.filter_append]
    cases hnull : v.isNull with
    | true => simpa [hnull] using hbag
    | false => simpa [hnull] using hbag.insert (Value.transitiveOn_conforms type) hv
  cases a with
  | count n =>
    have hn : n = vs.countP fun v => !v.isNull := h
    show (if v.isNull then n else n + 1) = _
    rw [List.countP_append, ← hn]
    cases hnull : v.isNull <;> simp [hnull]
  | sum s => exact RunningSum.Holds.add h v
  | avg s => exact RunningSum.Holds.add h v
  | min bag => exact hbag bag h
  | max bag => exact hbag bag h
  | cumeDist s =>
    have hseen : s.seen = vs.length := h
    show s.seen + 1 = _
    rw [hseen, List.length_append, List.length_singleton]
  | ntile s =>
    have hseen : s.seen = Int64.ofNat vs.length := h
    show s.seen + 1 = _
    rw [hseen, List.length_append, List.length_singleton, Int64.ofNat_add]
    rfl
  | lead => trivial
  | lag => trivial
  | user => exact h.elim

/-- MIN and MAX take a value back from their bag, where it is no NULL. -/
theorem exists_retract_bag (wrap : ValueBag → Accumulator σ) {bag : ValueBag}
    (hwrap : Accumulator.retract v (wrap bag) =
      if v.isNull then .ok () (wrap bag)
      else match bag.remove v with
        | .ok bag => .ok () (wrap bag)
        | .error e => .error e (wrap bag))
    (h : ValueBag.Holds (Value.Conforms · type) bag ((v :: vs).filter fun v => !v.isNull)) :
    ∃ rest, Accumulator.retract v (wrap bag) = .ok () (wrap rest) ∧
      ValueBag.Holds (Value.Conforms · type) rest (vs.filter fun v => !v.isNull) := by
  rw [hwrap]
  cases hnull : v.isNull with
  | true =>
    rw [List.filter_cons_of_neg (by simp [hnull])] at h
    exact ⟨bag, rfl, h⟩
  | false =>
    rw [List.filter_cons_of_pos (by simp [hnull])] at h
    obtain ⟨rest, hrest, hholds⟩ := h.remove (Value.transitiveOn_conforms type)
    exact ⟨rest, by rw [hrest]; rfl, hholds⟩

/-- A value that is held can be taken back, by a function that supports it. -/
theorem Holds.retract (h : a.Holds type (v :: vs)) (hsupports : a.supportsRetract) :
    ∃ b, Accumulator.retract v a = .ok () b ∧ b.Holds type vs := by
  cases a with
  | count n =>
    have hn : n = (v :: vs).countP fun v => !v.isNull := h
    cases hnull : v.isNull with
    | true =>
      refine ⟨count n, by simp [Accumulator.retract, hnull], ?_⟩
      simpa [Holds, hnull] using hn
    | false =>
      rw [List.countP_cons_of_pos (by simp [hnull])] at hn
      have hholds : (count (vs.countP fun v => !v.isNull) : Accumulator σ).Holds type vs := rfl
      exact ⟨_, by simp [Accumulator.retract, hnull, hn], hholds⟩
  | sum s =>
    obtain ⟨t, ht, hholds⟩ := RunningSum.Holds.remove h
    exact ⟨sum t, by simp only [Accumulator.retract, ht], hholds⟩
  | avg s =>
    obtain ⟨t, ht, hholds⟩ := RunningSum.Holds.remove h
    exact ⟨avg t, by simp only [Accumulator.retract, ht], hholds⟩
  | min bag =>
    obtain ⟨rest, hretract, hholds⟩ := exists_retract_bag min rfl h
    exact ⟨min rest, hretract, hholds⟩
  | max bag =>
    obtain ⟨rest, hretract, hholds⟩ := exists_retract_bag max rfl h
    exact ⟨max rest, hretract, hholds⟩
  | cumeDist => cases hsupports
  | ntile => cases hsupports
  | lead => exact ⟨lead v, rfl, trivial⟩
  | lag => exact ⟨lag v, rfl, trivial⟩
  | user => exact h.elim

end Accumulator

end SqlWindow
