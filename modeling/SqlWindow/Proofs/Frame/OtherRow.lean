import SqlWindow.Frame.OtherRow
import SqlWindow.Proofs.Frame.Tally

set_option autoImplicit false

/-! # Frames of one other row

A lookup succeeds on every conforming row: its distance is an integer or NULL, a position that
it finds is one of the partition, and both the value there and the default can be taken by LEAD
and LAG. These remember what they were fed last, so what a lookup answers is the value on the row
it has found just now, or else the default on the current row.
-/

namespace SqlWindow

variable {σ : Type} {types : List DataType} {rows : List Row}

/-! ## Lookups -/

namespace Accumulator

variable {a : Accumulator σ}

/-- LEAD and LAG answer with what they were given last. -/
theorem IsLookup.result_accumulate (h : a.IsLookup) (v : Value) : (a.accumulate v).result = v := by
  cases a <;> first | rfl | exact h.elim

theorem IsLookup.exists_retract (h : a.IsLookup) (v : Value) :
    ∃ b, retract v a = .ok () b ∧ b.result = v := by
  cases a <;> first | exact h.elim | exact ⟨_, rfl, rfl⟩

end Accumulator

/-- What a slot is fed in place of a row: its default, if it has one. -/
def Slot.fallback? (s : Slot σ) : Option Operand := s.fallback.or s.value

namespace CallTally

variable {t fresh : CallTally σ} {row : Row} {v : Row} {operand : Slot σ → Option Operand}

/-- The values `v` are those of an operand of each call, on one row. -/
def Feeds (t : CallTally σ) (operand : Slot σ → Option Operand) (row v : Row) : Prop :=
  t.slots.map (fun s => Slot.feed (operand s) row) = v.map Except.ok

theorem feeds_value_renew : t.renew.Feeds Slot.value row v ↔ t.Feeds Slot.value row v := by
  unfold Feeds renew
  rw [List.map_map]
  rfl

theorem feeds_fallback_renew :
    t.renew.Feeds Slot.fallback? row v ↔ t.Feeds Slot.fallback? row v := by
  unfold Feeds renew
  rw [List.map_map]
  rfl

/-- A step after which every slot answers with what it was fed. -/
theorem exists_onSlots {x : Action (Slot σ) Unit}
    (h : ∀ s ∈ t.slots, ∃ s', x s = .ok () s' ∧
      Slot.feed (operand s) row = .ok s'.accumulator.result) :
    ∃ u, onSlots x t = .ok () u ∧ t.Feeds operand row (Tally.values u) := by
  refine ⟨_, onSlots_of_ok fun s hs => (h s hs).imp fun _ => And.left, ?_⟩
  show t.slots.map _ = ((t.slots.map fun s => (x.outcome s).2).map _).map _
  rw [List.map_map, List.map_map]
  refine List.map_congr_left fun s hs => ?_
  obtain ⟨s', hs', hfed⟩ := h s hs
  rw [hfed, Function.comp_apply, Function.comp_apply, Action.outcome_of_ok hs']

/-- All functions are LEAD or LAG, and their values and defaults have types. -/
def LooksUp (types : List DataType) (t : CallTally σ) : Prop :=
  ∀ s ∈ t.slots, s.accumulator.IsLookup ∧ (∃ type, Slot.feedType types s.value = .ok type) ∧
    ∃ o type, s.fallback = some o ∧ o.type types = .ok type

theorem LooksUp.isBuiltin (h : t.LooksUp types) : t.IsBuiltin := fun s hs => (h s hs).1.isBuiltin

theorem looksUp_of_renew_eq (h : fresh.LooksUp types) (ht : t.renew = fresh) :
    t.LooksUp types := by
  intro s hs
  obtain ⟨hlookup, hvalue, hfallback⟩ := h s.renew (ht ▸ List.mem_map_of_mem hs)
  exact ⟨Accumulator.isLookup_renew.mp hlookup, hvalue, hfallback⟩

/-- The row that is looked at is taken in. -/
theorem LooksUp.exists_add (h : fresh.LooksUp types) (ht : t.renew = fresh)
    (hrow : Row.Conforms row types) :
    ∃ u, Tally.add row t = .ok () u ∧ u.renew = fresh ∧
      fresh.Feeds Slot.value row (Tally.values u) := by
  obtain ⟨u, hadd, hfeeds⟩ : ∃ u, Tally.add row t = .ok () u ∧
      t.Feeds Slot.value row (Tally.values u) := exists_onSlots fun s hs => by
    obtain ⟨hlookup, ⟨type, htype⟩, -⟩ := looksUp_of_renew_eq h ht s hs
    obtain ⟨v, hv, -⟩ := Slot.exists_feed htype hrow
    exact ⟨_, Slot.add_of_feed hv, by rw [hv, hlookup.result_accumulate]⟩
  exact ⟨u, hadd, (preserves_add (keeps_renew h.isBuiltin) row).of_ok ht hadd,
    ht ▸ feeds_value_renew.mpr hfeeds⟩

/-- The default on the current row is taken in its place. -/
theorem LooksUp.exists_remove (h : fresh.LooksUp types) (ht : t.renew = fresh)
    (hrow : Row.Conforms row types) :
    ∃ u, Tally.remove row t = .ok () u ∧ u.renew = fresh ∧
      fresh.Feeds Slot.fallback? row (Tally.values u) := by
  obtain ⟨u, hremove, hfeeds⟩ : ∃ u, Tally.remove row t = .ok () u ∧
      t.Feeds Slot.fallback? row (Tally.values u) := exists_onSlots fun s hs => by
    obtain ⟨hlookup, -, o, type, hfallback, htype⟩ := looksUp_of_renew_eq h ht s hs
    obtain ⟨v, hv, -⟩ := hrow.eval htype
    obtain ⟨a, ha, hresult⟩ := hlookup.exists_retract v
    have hfeed : Slot.feed s.fallback? row = .ok v := by
      rw [Slot.fallback?, hfallback]
      exact hv
    refine ⟨{ s with accumulator := a }, ?_, by rw [hfeed, hresult]⟩
    unfold Slot.remove
    rw [Action.get_bind]
    show (Action.ofExcept (Slot.feed s.fallback? row) >>= _) s = _
    rw [hfeed, Action.ofExcept_ok_bind]
    simp only [Action.onPart, ha]
  exact ⟨u, hremove, (preserves_remove (keeps_renew h.isBuiltin) row).of_ok ht hremove,
    ht ▸ feeds_fallback_renew.mpr hfeeds⟩

/-- Cleared lookups are alike when they were built alike. -/
theorem LooksUp.clear_congr {u : CallTally σ} (h : t.LooksUp types) (htu : t.renew = u.renew) :
    Tally.clear t = Tally.clear u := by
  have hslots : t.slots.map Slot.renew = u.slots.map Slot.renew := congrArg slots htu
  refine congrArg CallTally.mk (map_eq_map_of_map_eq hslots fun s hs s' hss' => ?_)
  rw [Slot.renew, Slot.renew, Slot.mk.injEq] at hss'
  obtain ⟨haccumulator, hvalue, hfallback⟩ := hss'
  show Slot.mk _ _ _ = Slot.mk _ _ _
  rw [Accumulator.reset_congr_of_isLookup (h s hs).1 haccumulator, hvalue, hfallback]

end CallTally

/-! ## Frames -/

namespace OtherRow

variable {f f₀ : OtherRow σ} {index : Nat} {current : Row}

/-- The distance of a lookup is an integer: a literal one, or an integer field. -/
def OffsetFits (types : List DataType) (offset : Operand) : Prop :=
  (∃ k, offset = .literal (.integer k)) ∨
    ∃ index, offset = .field index ∧ types[index]? = some .integer

/-- A position that a lookup finds is one of the partition. -/
theorem exists_target (h : OffsetFits types f.offset) (hcurrent : Row.Conforms current types)
    (index : Nat) : ∃ target, f.target? index current = .ok target ∧
      ∀ j, target = some j → j < f.length := by
  have heval : ∃ v, f.offset.eval current = .ok v ∧ v.Conforms .integer := by
    rcases h with ⟨k, hk⟩ | ⟨field, hfield, htype⟩
    · exact ⟨.integer k, by rw [hk]; rfl, .inr rfl⟩
    · obtain ⟨v, hv, hconforms⟩ := hcurrent.field htype
      exact ⟨v, by rw [hfield]; exact hv, hconforms⟩
  obtain ⟨v, hv, hconforms⟩ := heval
  rw [target?, Answer.bind_of_ok hv]
  cases v with
  | integer k =>
    refine ⟨_, rfl, fun j hj => ?_⟩
    split at hj
    · cases hj
      omega
    · cases hj
  | null => exact ⟨none, rfl, nofun⟩
  | _ => rcases hconforms with h | h <;> cases h

/-- The position that a lookup finds, in unbounded integers. -/
theorem offset_of_target?_eq_some {j : Nat} (h : f.target? index current = .ok (some j)) :
    ∃ k : Int64, f.offset.eval current = .ok (.integer k) ∧
      (j : Int) = index + f.direction.sign * k.toInt := by
  obtain ⟨v, hv, h⟩ := Answer.ok_of_bind_ok h
  cases v with
  | integer k =>
    refine ⟨k, hv, ?_⟩
    rw [Int.mul_comm]
    dsimp only at h
    split at h
    · cases h
      omega
    · cases h
  | null type => cases h
  | _ => cases h

/-- A lookup that finds no position looks past the ends of the partition, or has no distance. -/
theorem offset_of_target?_eq_none (h : f.target? index current = .ok none) :
    (∃ k : Int64, f.offset.eval current = .ok (.integer k) ∧
        ¬(0 ≤ index + f.direction.sign * k.toInt ∧
          index + f.direction.sign * k.toInt < f.length)) ∨
      ∃ type, f.offset.eval current = .ok (.null type) := by
  obtain ⟨v, hv, h⟩ := Answer.ok_of_bind_ok h
  cases v with
  | integer k =>
    refine .inl ⟨k, hv, ?_⟩
    rw [Int.mul_comm]
    dsimp only at h
    split at h
    · cases h
    · assumption
  | null type => exact .inr ⟨type, hv⟩
  | _ => cases h

/-- The prepared frame `f₀` has been asked for some rows. -/
def Reached (f₀ f : OtherRow σ) : Prop := ∃ t, f = { f₀ with tally := t } ∧
  t.renew = f₀.tally.renew

theorem reads_onTally {x : Action (CallTally σ) Unit} {t : CallTally σ}
    (hx : x f.tally = .ok () t) : Reads rows (onTally x) f () { f with tally := t } :=
  .onFirst (Action.onPart_of_ok hx)

/-- What a lookup answers with `v` for the current row: the values on the row that it finds, or
the defaults on the current row when it finds none. -/
def Answers (f : OtherRow σ) (fresh : CallTally σ) (rows : List Row) (index : Nat)
    (current v : Row) : Prop :=
  (∃ (j : Nat) (row : Row), f.target? index current = .ok (some j) ∧ rows[j]? = some row ∧
      fresh.Feeds Slot.value row v) ∨
    f.target? index current = .ok none ∧ fresh.Feeds Slot.fallback? current v

/-- **One row.** -/
theorem exists_process (htally : f₀.tally.renew.LooksUp types)
    (hoffset : OffsetFits types f₀.offset) (hlength : f₀.length = rows.length)
    (hrows : ∀ row ∈ rows, Row.Conforms row types) (hf : Reached f₀ f)
    (hrow : rows[index]? = some current) :
    ∃ v g, Reads rows (process index current) f v g ∧ Reached f₀ g ∧
      f₀.Answers f₀.tally.renew rows index current v := by
  obtain ⟨t, rfl, ht⟩ := hf
  have hcurrent := hrows current (List.mem_of_getElem? hrow)
  obtain ⟨target, htarget, hlt⟩ :=
    @exists_target _ _ { f₀ with tally := t } _ hoffset hcurrent index
  cases target with
  | none =>
    obtain ⟨u, hremove, hu, hfeeds⟩ := htally.exists_remove ht hcurrent
    refine ⟨Tally.values u, { f₀ with tally := u }, ?_, ⟨u, rfl, hu⟩, .inr ⟨htarget, hfeeds⟩⟩
    exact .get fun s _ => .bind (.ofExcept htarget)
      (.bind (reads_onTally hremove) (.get fun s _ => .pure _ _))
  | some j =>
    have hjlt : j < rows.length := hlength ▸ hlt j rfl
    have hj : rows[j]? = some rows[j] := List.getElem?_eq_getElem hjlt
    obtain ⟨u, hadd, hu, hfeeds⟩ := htally.exists_add ht (hrows _ (List.mem_of_getElem? hj))
    refine ⟨Tally.values u, { f₀ with tally := u }, ?_, ⟨u, rfl, hu⟩,
      .inl ⟨j, rows[j], htarget, hj, hfeeds⟩⟩
    exact .get fun s _ => .bind (.ofExcept htarget)
      (.bind (.row hj) (.bind (reads_onTally hadd) (.get fun s _ => .pure _ _)))

end OtherRow

end SqlWindow
