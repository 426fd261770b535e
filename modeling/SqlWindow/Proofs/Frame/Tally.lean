import SqlWindow.Frame.Tally
import SqlWindow.Proofs.Frame.Held
import SqlWindow.Proofs.Function.Aggregate
import SqlWindow.Proofs.Preserves
import SqlWindow.Proofs.Row.Between
import SqlWindow.Proofs.Spec.Conforming

set_option autoImplicit false

/-! # What the tally of a frame holds

A tally holds some rows when each of its accumulators holds what its call is fed on them. Rows
that conform to the types of the input fields come in and go out without an error, and through
all of this a tally stays the one of its calls: `renew` takes it back to what it was built as.
-/

namespace SqlWindow

variable {σ : Type} {types : List DataType}

/-- What leaves every member alone leaves the list alone. -/
theorem map_eq_self {α : Type} {f : α → α} {xs : List α} (h : ∀ x ∈ xs, f x = x) :
    xs.map f = xs :=
  (List.map_congr_left h).trans (List.map_id' xs)

/-! ## Slots -/

namespace Slot

variable {s : Slot σ} {row : Row} {rows : List Row}

/-- The slot with its function as new. -/
def renew (s : Slot σ) : Slot σ := { s with accumulator := s.accumulator.renew }

/-- The type of what a call is fed, whose aggregated argument this is. -/
def feedType (types : List DataType) (operand : Option Operand) : Except Error DataType :=
  match operand with
  | some operand => operand.type types
  | none => .ok rowMarker.type

theorem exists_feed {operand : Option Operand} {type : DataType}
    (htype : feedType types operand = .ok type) (hrow : Row.Conforms row types) :
    ∃ v, feed operand row = .ok v ∧ v.Conforms type := by
  cases operand with
  | none => exact ⟨rowMarker, rfl, .inr (Except.ok.inj htype)⟩
  | some o => exact hrow.eval htype

/-- The function of the slot holds what it is fed on the rows. -/
def Holds (types : List DataType) (rows : List Row) (s : Slot σ) : Prop :=
  ∃ type vs, feedType types s.value = .ok type ∧ rows.map (feed s.value) = vs.map Except.ok ∧
    (∀ v ∈ vs, v.Conforms type) ∧ s.accumulator.Holds type vs

theorem Holds.isBuiltin (h : s.Holds types rows) : s.accumulator.IsBuiltin := by
  obtain ⟨type, vs, -, -, -, h⟩ := h
  exact h.isBuiltin

theorem add_of_feed {v : Value} (h : feed s.value row = .ok v) :
    add row s = .ok () { s with accumulator := s.accumulator.accumulate v } := by
  unfold add
  rw [Action.get_bind, h]
  rfl

/-- A row that conforms can be taken in. -/
theorem Holds.add (h : s.Holds types rows) (hrow : Row.Conforms row types) :
    ∃ t, Slot.add row s = .ok () t ∧ t.Holds types (rows ++ [row]) := by
  obtain ⟨type, vs, htype, hvs, hconforms, hholds⟩ := h
  obtain ⟨v, hv, hvtype⟩ := exists_feed htype hrow
  refine ⟨_, add_of_feed hv, type, vs ++ [v], htype, ?_, ?_, hholds.accumulate hvtype⟩
  · rw [List.map_append, List.map_append, hvs, List.map_singleton, List.map_singleton, hv]
  · intro u hu
    rcases List.mem_append.mp hu with hu | hu
    · exact hconforms u hu
    · rwa [List.mem_singleton.mp hu]

theorem remove_of_feed {v : Value} {a : Accumulator σ} (hfallback : s.fallback = none)
    (h : feed s.value row = .ok v) (hretract : Accumulator.retract v s.accumulator = .ok () a) :
    remove row s = .ok () { s with accumulator := a } := by
  unfold remove
  rw [Action.get_bind, hfallback, Option.none_or, h, Action.ofExcept_ok_bind]
  simp only [Action.onPart, hretract, hfallback]

/-- A row that is held can be taken back, by a function that supports it. -/
theorem Holds.remove (h : s.Holds types (row :: rows)) (hfallback : s.fallback = none)
    (hsupports : s.accumulator.supportsRetract) :
    ∃ t, Slot.remove row s = .ok () t ∧ t.Holds types rows := by
  obtain ⟨type, vs, htype, hvs, hconforms, hholds⟩ := h
  cases vs with
  | nil => cases hvs
  | cons v vs =>
    rw [List.map_cons, List.map_cons, List.cons.injEq] at hvs
    obtain ⟨a, hretract, ha⟩ := hholds.retract hsupports
    exact ⟨_, remove_of_feed hfallback hvs.1 hretract, type, vs, htype, hvs.2,
      fun u hu => hconforms u (List.mem_cons_of_mem v hu), ha⟩

/-- **What is held determines the result.** -/
theorem Holds.isAnswer (h : s.Holds types rows) :
    ∃ type vs, feedType types s.value = .ok type ∧ rows.map (feed s.value) = vs.map Except.ok ∧
      Aggregate.IsAnswer type vs s.accumulator.result s.accumulator.name := by
  obtain ⟨type, vs, htype, hvs, hconforms, hholds⟩ := h
  exact ⟨type, vs, htype, hvs, hholds.isAnswer hconforms⟩

/-! ### What a slot was built as -/

variable {s₀ : Slot σ} {r : Accumulator σ → Accumulator σ}

theorem preserves_add (h : Accumulator.Keeps r s₀.accumulator) (row : Row) :
    Action.Preserves (fun s : Slot σ => { s with accumulator := r s.accumulator } = s₀)
      (add row) := by
  refine .get fun s _ => .bind (.ofExcept _) fun v => .modify ?_
  rintro t rfl
  exact congrArg (fun a => ({ t with accumulator := a } : Slot σ))
    (h.accumulate t.accumulator rfl v)

theorem preserves_remove (h : Accumulator.Keeps r s₀.accumulator) (row : Row) :
    Action.Preserves (fun s : Slot σ => { s with accumulator := r s.accumulator } = s₀)
      (remove row) := by
  have hretract (v : Value) : Action.Preserves (fun a : Accumulator σ => r a = s₀.accumulator)
      (Accumulator.retract v) := fun a ha => h.retract a ha v
  refine .get fun s _ => .bind (.ofExcept _) fun v => (hretract v).onPart ?_ ?_
  · rintro t rfl
    rfl
  · rintro t a rfl ha
    exact congrArg (fun a => ({ t with accumulator := a } : Slot σ)) ha

end Slot

/-! ## Tallies -/

namespace CallTally

variable {t fresh : CallTally σ} {row : Row} {rows : List Row}

/-- The tally as it was built, with all its functions as new. -/
def renew (t : CallTally σ) : CallTally σ := ⟨t.slots.map Slot.renew⟩

/-- All functions are built-in ones. -/
def IsBuiltin (t : CallTally σ) : Prop := ∀ s ∈ t.slots, s.accumulator.IsBuiltin

/-- No call has a default that stands in for a row. -/
def NoFallback (t : CallTally σ) : Prop := ∀ s ∈ t.slots, s.fallback = none

/-- All functions can take values back. -/
def SupportsRetract (t : CallTally σ) : Prop :=
  ∀ s ∈ t.slots, s.accumulator.supportsRetract = true

/-- The functions are built-in ones, and what they are fed has a type. -/
def Fits (types : List DataType) (t : CallTally σ) : Prop :=
  ∀ s ∈ t.slots, s.accumulator.IsBuiltin ∧ ∃ type, Slot.feedType types s.value = .ok type

/-- The tally is the one built as `fresh`, and each slot holds the rows. -/
structure Holds (types : List DataType) (t fresh : CallTally σ) (rows : List Row) : Prop where
  renew_eq : t.renew = fresh
  slots : ∀ s ∈ t.slots, s.Holds types rows

theorem onSlots_of_ok {x : Action (Slot σ) Unit} (h : ∀ s ∈ t.slots, ∃ s', x s = .ok () s') :
    onSlots x t = .ok () ⟨t.slots.map fun s => (x.outcome s).2⟩ := by
  have hrun : Action.onEach (Action.onFirst x) (t.slots, ()) =
      .ok (t.slots.map fun _ => ()) (t.slots.map fun s => (x.outcome s).2, ()) := by
    obtain ⟨slots⟩ := t
    induction slots with
    | nil => rfl
    | cons s slots ih =>
      obtain ⟨s', hs'⟩ := h s List.mem_cons_self
      have hrest := ih fun s hs => h s (List.mem_cons_of_mem _ hs)
      simp only [Action.onEach] at hrest
      simp only [Action.onEach, Action.runEach, Action.onFirst, Action.onPart, hs', List.map_cons,
        Action.outcome_of_ok hs']
      simp only [Action.onFirst] at hrest
      rw [hrest]
  show EStateM.map _ (Action.onPart _ _ _) t = _
  simp only [EStateM.map, Action.onPart, hrun]

theorem exists_ok_of_runEach_ok {x : Action (Slot σ) Unit} {slots : List (Slot σ)}
    {us : List Unit} {rest : List (Slot σ) × Unit}
    (h : Action.runEach (Action.onFirst x) slots () = .ok us rest) :
    ∀ s ∈ slots, ∃ s', x s = .ok () s' := by
  induction slots generalizing us rest with
  | nil => exact fun s hs => absurd hs List.not_mem_nil
  | cons s slots ih =>
    simp only [Action.runEach, Action.onFirst, Action.onPart] at h ih
    cases hs : x s with
    | error e s' => simp [hs] at h
    | ok a s' =>
      simp only [hs] at h
      split at h
      · cases h
      · rename_i hrest
        exact List.forall_mem_cons.mpr ⟨⟨s', hs⟩, ih hrest⟩

/-- An action on all slots that succeeds has been applied to each of them. -/
theorem eq_of_onSlots_ok {x : Action (Slot σ) Unit} {u : CallTally σ} (h : onSlots x t = .ok () u) :
    u = ⟨t.slots.map fun s => (x.outcome s).2⟩ := by
  have hslots : ∀ s ∈ t.slots, ∃ s', x s = .ok () s' := by
    cases hrun : Action.runEach (Action.onFirst x) t.slots () with
    | ok us rest => exact exists_ok_of_runEach_ok hrun
    | error e rest =>
      have herror : onSlots x t = .error e ⟨rest.1⟩ := by
        show EStateM.map _ (Action.onPart _ _ (Action.onEach _)) t = _
        simp only [EStateM.map, Action.onPart, Action.onEach, hrun]
      rw [herror] at h
      cases h
  have hok := onSlots_of_ok hslots
  rw [h] at hok
  cases hok
  rfl

section

variable {r : Accumulator σ → Accumulator σ} {base : CallTally σ}

theorem preserves_onSlots {x : Action (Slot σ) Unit}
    (hx : ∀ s₀ ∈ base.slots,
      Action.Preserves (fun s => { s with accumulator := r s.accumulator } = s₀) x) :
    Action.Preserves (fun t : CallTally σ => t.map r = base) (onSlots x) := by
  have heach : Action.Preserves (fun p : List (Slot σ) × Unit =>
      (p.1.map fun s => { s with accumulator := r s.accumulator }) = base.slots ∧ True)
        (Action.onEach (Action.onFirst x)) :=
    @Action.Preserves.onEach_map _ _ _ _ _ (fun _ => True) _ _ fun s₀ hs₀ =>
      @Action.Preserves.onFirst _ _ _ _ (fun _ => True) _ (hx s₀ hs₀)
  refine .discard (heach.onPart ?_ ?_)
  · rintro t rfl
    exact ⟨rfl, trivial⟩
  · rintro t p - ⟨hslots, -⟩
    exact congrArg CallTally.mk hslots

theorem preserves_add (h : ∀ s₀ ∈ base.slots, Accumulator.Keeps r s₀.accumulator) (row : Row) :
    Action.Preserves (fun t : CallTally σ => t.map r = base) (Tally.add row) :=
  preserves_onSlots fun s₀ hs₀ => Slot.preserves_add (h s₀ hs₀) row

theorem preserves_remove (h : ∀ s₀ ∈ base.slots, Accumulator.Keeps r s₀.accumulator) (row : Row) :
    Action.Preserves (fun t : CallTally σ => t.map r = base) (Tally.remove row) :=
  preserves_onSlots fun s₀ hs₀ => Slot.preserves_remove (h s₀ hs₀) row

/-- A change of every function that none of them shows to `r`. -/
theorem map_map_eq {g : Accumulator σ → Accumulator σ}
    (hg : ∀ s₀ ∈ base.slots, ∀ a, r a = s₀.accumulator → r (g a) = s₀.accumulator)
    (ht : t.map r = base) : (t.map g).map r = base := by
  subst ht
  show CallTally.mk ((t.slots.map _).map _) = CallTally.mk (t.slots.map _)
  rw [List.map_map]
  refine congrArg CallTally.mk (List.map_congr_left fun s hs => ?_)
  have hkept := hg { s with accumulator := r s.accumulator } (List.mem_map_of_mem hs)
    s.accumulator rfl
  exact congrArg (fun a => ({ s with accumulator := a } : Slot σ)) hkept

end

theorem keeps_renew (h : fresh.IsBuiltin) :
    ∀ s₀ ∈ fresh.slots, Accumulator.Keeps Accumulator.renew s₀.accumulator :=
  fun s₀ hs₀ => Accumulator.keeps_renew (h s₀ hs₀)

theorem isBuiltin_of_renew_eq (h : fresh.IsBuiltin) (ht : t.renew = fresh) : t.IsBuiltin := by
  intro s hs
  rw [← ht] at h
  exact Accumulator.isBuiltin_renew.mp (h s.renew (List.mem_map_of_mem hs))

theorem IsBuiltin.renew (h : t.IsBuiltin) : t.renew.IsBuiltin := by
  intro s' hs'
  obtain ⟨s, hs, rfl⟩ := List.mem_map.mp hs'
  exact Accumulator.isBuiltin_renew.mpr (h s hs)

theorem renew_clear (h : t.IsBuiltin) : (Tally.clear t).renew = t.renew :=
  map_map_eq (fun s₀ hs₀ => (keeps_renew h.renew s₀ hs₀).reset) rfl

theorem renew_setWindowSize (h : t.IsBuiltin) (size : Nat) :
    (Tally.setWindowSize size t).renew = t.renew := by
  refine map_map_eq (fun s₀ hs₀ a ha => ?_) rfl
  have hbuiltin : a.IsBuiltin := Accumulator.isBuiltin_renew.mp (ha ▸ h.renew s₀ hs₀)
  rw [Accumulator.renew_setWindowSize hbuiltin, ha]

/-- Two lists that agree in one respect agree in every other that follows from it. -/
theorem map_eq_map_of_map_eq {α β γ : Type} {r : α → β} {g : α → γ} {xs ys : List α}
    (hr : xs.map r = ys.map r) (hg : ∀ x ∈ xs, ∀ y, r x = r y → g x = g y) :
    xs.map g = ys.map g := by
  induction xs generalizing ys with
  | nil =>
    rw [List.map_nil] at hr
    rw [List.map_eq_nil_iff.mp hr.symm]
  | cons x xs ih =>
    cases ys with
    | nil => cases hr
    | cons y ys =>
      rw [List.map_cons, List.map_cons, List.cons.injEq] at hr
      rw [List.map_cons, List.map_cons, hg x List.mem_cons_self y hr.1,
        ih hr.2 fun x hx => hg x (List.mem_cons_of_mem _ hx)]

/-- **A partition starts alike.** What the tally of a frame is at the start of a partition
depends on nothing but what it was built as. -/
theorem prepared_congr {u : CallTally σ} (h : t.IsBuiltin) (htu : t.renew = u.renew) (size : Nat) :
    Tally.setWindowSize size (Tally.clear t) = Tally.setWindowSize size (Tally.clear u) := by
  -- slot by slot: a reset and the window size leave nothing but the configuration
  have hslots : t.slots.map Slot.renew = u.slots.map Slot.renew := congrArg slots htu
  show CallTally.mk ((t.slots.map _).map _) = CallTally.mk ((u.slots.map _).map _)
  rw [List.map_map, List.map_map]
  refine congrArg CallTally.mk (map_eq_map_of_map_eq hslots fun s hs s' hss' => ?_)
  rw [Slot.renew, Slot.renew, Slot.mk.injEq] at hss'
  obtain ⟨haccumulator, hvalue, hfallback⟩ := hss'
  show Slot.mk _ _ _ = Slot.mk _ _ _
  rw [Accumulator.setWindowSize_reset_congr (h s hs) haccumulator, hvalue, hfallback]

/-- The tally at the start of a partition holds no rows. -/
theorem holds_prepared (h : fresh.Fits types) (ht : t.renew = fresh) (size : Nat) :
    (Tally.setWindowSize size (Tally.clear t)).Holds types fresh [] := by
  have hbuiltin : t.IsBuiltin := isBuiltin_of_renew_eq (fun s hs => (h s hs).1) ht
  have hclear : (Tally.clear t).renew = fresh := (renew_clear hbuiltin).trans ht
  refine ⟨?_, fun s' hs' => ?_⟩
  · rw [renew_setWindowSize _ size, hclear]
    exact isBuiltin_of_renew_eq (fun s hs => (h s hs).1) hclear
  · obtain ⟨s₁, hs₁, rfl⟩ := List.mem_map.mp hs'
    obtain ⟨s, hs, rfl⟩ := List.mem_map.mp hs₁
    have hmem : s.renew ∈ fresh.slots := ht ▸ List.mem_map_of_mem hs
    obtain ⟨type, htype⟩ := (h s.renew hmem).2
    exact ⟨type, [], htype, rfl, by simp,
      (Accumulator.holds_reset (hbuiltin s hs)).setWindowSize size⟩

/-! ## Rows going in and out -/

theorem Holds.isBuiltin (h : t.Holds types fresh rows) : t.IsBuiltin :=
  fun s hs => (h.slots s hs).isBuiltin

/-- Rows that conform can be taken in. -/
theorem Holds.add (h : t.Holds types fresh rows) (hfresh : fresh.IsBuiltin)
    (hrow : Row.Conforms row types) :
    ∃ u, Tally.add row t = .ok () u ∧ u.Holds types fresh (rows ++ [row]) := by
  have hok : ∀ s ∈ t.slots, ∃ s', Slot.add row s = .ok () s' ∧ s'.Holds types (rows ++ [row]) :=
    fun s hs => (h.slots s hs).add hrow
  have hadd : Tally.add row t = .ok () ⟨t.slots.map fun s => ((Slot.add row).outcome s).2⟩ :=
    onSlots_of_ok fun s hs => (hok s hs).imp fun _ => And.left
  refine ⟨_, hadd, (preserves_add (keeps_renew hfresh) row).of_ok h.renew_eq hadd, fun s' hs' => ?_⟩
  obtain ⟨s, hs, rfl⟩ := List.mem_map.mp hs'
  obtain ⟨s', hs', hholds⟩ := hok s hs
  rwa [Action.outcome_of_ok hs']

theorem Holds.remove (h : t.Holds types fresh (row :: rows)) (hfresh : fresh.IsBuiltin)
    (hfallback : fresh.NoFallback) (hsupports : fresh.SupportsRetract) :
    ∃ u, Tally.remove row t = .ok () u ∧ u.Holds types fresh rows := by
  have hok : ∀ s ∈ t.slots, ∃ s', Slot.remove row s = .ok () s' ∧ s'.Holds types rows := by
    intro s hs
    have hmem : s.renew ∈ fresh.slots := h.renew_eq ▸ List.mem_map_of_mem hs
    refine (h.slots s hs).remove (hfallback s.renew hmem) ?_
    rw [← Accumulator.supportsRetract_renew (h.isBuiltin s hs)]
    exact hsupports s.renew hmem
  have hremove : Tally.remove row t =
      .ok () ⟨t.slots.map fun s => ((Slot.remove row).outcome s).2⟩ :=
    onSlots_of_ok fun s hs => (hok s hs).imp fun _ => And.left
  refine ⟨_, hremove, (preserves_remove (keeps_renew hfresh) row).of_ok h.renew_eq hremove, ?_⟩
  intro s' hs'
  obtain ⟨s, hs, rfl⟩ := List.mem_map.mp hs'
  obtain ⟨s', hs', hholds⟩ := hok s hs
  rwa [Action.outcome_of_ok hs']

theorem Holds.clear (h : t.Holds types fresh rows) : (Tally.clear t).Holds types fresh [] := by
  refine ⟨(renew_clear h.isBuiltin).trans h.renew_eq, fun s' hs' => ?_⟩
  obtain ⟨s, hs, rfl⟩ := List.mem_map.mp hs'
  obtain ⟨type, vs, htype, -, -, hholds⟩ := h.slots s hs
  exact ⟨type, [], htype, rfl, by simp, Accumulator.holds_reset hholds.isBuiltin⟩

/-! ## Consecutive rows -/

/-- A tally as a frame over rows is built with: its functions are new built-in ones, what they
are fed has a type, and no call has a default. -/
structure IsFramed (types : List DataType) (fresh : CallTally σ) : Prop where
  renew_eq : fresh.renew = fresh
  fits : fresh.Fits types
  noFallback : fresh.NoFallback

theorem IsFramed.isBuiltin (h : fresh.IsFramed types) : fresh.IsBuiltin := fun s hs =>
  (h.fits s hs).1

/-- The tally is the one built as `fresh`, and it holds the rows from position `a` up to but
without `b`. -/
def HoldsBetween (types : List DataType) (fresh : CallTally σ) (rows : List Row) (a b : Nat)
    (t : CallTally σ) : Prop :=
  t.Holds types fresh (rowsBetween rows a b)

/-- What a tally holds follows the rows of a partition whose rows conform; rows can be taken back
where all functions support it. -/
theorem IsFramed.follows (h : fresh.IsFramed types)
    (hrows : ∀ row ∈ rows, Row.Conforms row types) :
    Tally.Follows rows fresh.SupportsRetract (HoldsBetween types fresh rows) where
  clear {a b t} ht c := by
    show Holds types (Tally.clear t) fresh (rowsBetween rows c c)
    rw [rowsBetween_self]
    exact CallTally.Holds.clear ht
  move {a t} ht c := by
    have hnone : Holds types t fresh (rowsBetween rows a a) := ht
    show Holds types t fresh (rowsBetween rows c c)
    rwa [rowsBetween_self] at hnone ⊢
  add {a b t row} ht hle hrow := by
    obtain ⟨u, hadd, hu⟩ := CallTally.Holds.add ht h.isBuiltin
      (hrows row (List.mem_of_getElem? hrow))
    refine ⟨u, hadd, ?_⟩
    show Holds types u fresh (rowsBetween rows a (b + 1))
    rwa [rowsBetween_succ hle hrow]
  remove {a b t row} hcan ht hlt hb hrow := by
    have hfirst : Holds types t fresh (rowsBetween rows a b) := ht
    rw [rowsBetween_eq_cons (by omega) hrow] at hfirst
    exact hfirst.remove h.isBuiltin h.noFallback hcan

/-- At the start of a partition a tally that was built as `fresh` holds no rows. -/
theorem IsFramed.holds_start (h : fresh.IsFramed types) (rows : List Row) (size : Nat) :
    HoldsBetween types fresh rows 0 0 (Tally.setWindowSize size (Tally.clear fresh)) := by
  show Holds types _ fresh (rowsBetween rows 0 0)
  rw [rowsBetween_self]
  exact holds_prepared h.fits h.renew_eq size

/-- All tallies that were built as `fresh` start a partition alike. -/
theorem IsFramed.prepared_eq (h : fresh.IsFramed types) (ht : t.renew = fresh) (size : Nat) :
    Tally.setWindowSize size (Tally.clear t) = Tally.setWindowSize size (Tally.clear fresh) :=
  prepared_congr (isBuiltin_of_renew_eq h.isBuiltin ht) (ht.trans h.renew_eq.symm) size

end CallTally

end SqlWindow
