import SqlWindow.Proofs.Frame.OtherRow
import SqlWindow.Proofs.Spec.Accepted

set_option autoImplicit false

/-! # The tallies of accepted calls

Accepted calls have a tally of new built-in functions. What such a tally answers for the call of
an aggregate, when it holds some rows, is the aggregate of these rows.
-/

namespace SqlWindow

variable {σ : Type} {types : List DataType} {registry : Registry σ}

namespace Accumulator

variable {a : Accumulator σ}

theorem name_renew (h : a.IsBuiltin) : a.renew.name = a.name := by
  cases a <;> rfl

theorem isLookup_of_name_eq (h : a.IsBuiltin) (hname : a.name = "LEAD" ∨ a.name = "LAG") :
    a.IsLookup := by
  cases a <;> first | trivial | exact h.elim | simp [name] at hname

end Accumulator

/-! ## Calls -/

namespace Call

/-- `v` is the value of a call over some rows. Of the values it is fed there this says what
`Aggregate.IsAnswer` does. -/
def IsAnswer (c : Call) (types : List DataType) (rows : List Row) (v : Value) : Prop :=
  ∃ type vs, Slot.feedType types c.value? = .ok type ∧
    rows.map (Slot.feed c.value?) = vs.map Except.ok ∧
    Aggregate.IsAnswer type vs v (uppercase c.name)

/-- The call is made from the name of a function and arguments. -/
def IsMade (c : Call) : Prop := ∃ name arguments, c = make name arguments

variable {c : Call} {a : Accumulator σ} {s : Slot σ}

theorem Accepted.eq_slot (h : c.Accepted types registry a) (hs : Slot.ofCall registry c = .ok s) :
    s = ⟨a, c.value?, c.lookup.map Lookup.default⟩ := by
  rw [h.slot] at hs
  exact (Except.ok.inj hs).symm

theorem Accepted.exists_feedType (h : c.Accepted types registry a) :
    ∃ type, Slot.feedType types c.value? = .ok type := by
  cases hvalue : c.value? with
  | none => exact ⟨_, rfl⟩
  | some o => exact h.value hvalue

/-- The function of a call has its name in upper case. -/
theorem Accepted.name_eq (h : c.Accepted types Registry.builtin a) :
    a.name = uppercase c.name := by
  obtain ⟨b, hb, hconfigure⟩ := configure_of_function h.function
  obtain ⟨hmem, hname⟩ := Registry.mem_builtins_of_create hb
  rw [((Accumulator.isNew_of_mem_builtins hmem).configure hconfigure).2]
  rcases hname with hname | hname
  · rw [← hname, Registry.uppercase_name_of_mem_builtins hmem]
  · exact hname

theorem eq_of_direction? {name : String} (h : direction? name ≠ none) :
    name = "LEAD" ∨ name = "LAG" := by
  unfold direction? at h
  split at h
  · exact .inl rfl
  · exact .inr rfl
  · exact absurd rfl h

/-- The function of a made lookup is LEAD or LAG. -/
theorem Accepted.isLookup (h : c.Accepted types Registry.builtin a) (hmade : c.IsMade)
    (hlookup : c.lookup ≠ none) : a.IsLookup := by
  obtain ⟨name, arguments, rfl⟩ := hmade
  have hmade : uppercase name = "LEAD" ∨ uppercase name = "LAG" := by
    refine eq_of_direction? fun hnone => hlookup ?_
    show Option.map _ (direction? (uppercase name)) = none
    rw [hnone]
    rfl
  have hname : a.name = uppercase (uppercase name) := h.name_eq
  have hupper : uppercase "LEAD" = "LEAD" ∧ uppercase "LAG" = "LAG" := by decide +kernel
  refine Accumulator.isLookup_of_name_eq (isNew_of_function h.function).1.1 ?_
  rcases hmade with hmade | hmade
  · exact .inl (by rw [hname, hmade, hupper.1])
  · exact .inr (by rw [hname, hmade, hupper.2])

end Call

/-! ## Tallies -/

namespace CallTally

variable {calls : List Call} {t fresh : CallTally σ}

theorem map_slots_of_ofCalls (h : ofCalls calls registry = .ok t) :
    calls.map (Slot.ofCall registry) = t.slots.map Except.ok := by
  obtain ⟨slots, hslots, ht⟩ := Answer.ok_of_bind_ok h
  cases ht
  exact Answer.mapM_eq_ok_iff.mp hslots

theorem length_of_ofCalls (h : ofCalls calls registry = .ok t) : t.slots.length = calls.length := by
  simpa using (congrArg List.length (map_slots_of_ofCalls h)).symm

theorem exists_call_of_mem (h : ofCalls calls registry = .ok t) {s : Slot σ} (hs : s ∈ t.slots) :
    ∃ c ∈ calls, Slot.ofCall registry c = .ok s := by
  obtain ⟨slots, hslots, ht⟩ := Answer.ok_of_bind_ok h
  cases ht
  exact Answer.exists_of_mem_mapM hslots hs

theorem exists_slot_of_getElem? (h : ofCalls calls registry = .ok t) {k : Nat} {c : Call}
    (hc : calls[k]? = some c) : ∃ s, t.slots[k]? = some s ∧ Slot.ofCall registry c = .ok s := by
  have hslots := congrArg (·[k]?) (map_slots_of_ofCalls h)
  simp only [List.getElem?_map, hc, Option.map_some] at hslots
  obtain ⟨s, hs, heq⟩ := Option.map_eq_some_iff.mp hslots.symm
  exact ⟨s, hs, heq.symm⟩

/-- **Accepted calls have a tally** to build a frame over rows with. -/
theorem exists_ofCalls (h : ∀ c ∈ calls, ∃ a, c.Accepted types (Registry.builtin : Registry σ) a ∧
      c.lookup = none) :
    ∃ t : CallTally σ, ofCalls calls Registry.builtin = .ok t ∧ t.IsFramed types := by
  have hslotOf : ∀ c ∈ calls, ∃ s, Slot.ofCall (Registry.builtin : Registry σ) c = .ok s := by
    intro c hc
    obtain ⟨a, ha, -⟩ := h c hc
    exact ⟨_, ha.slot⟩
  obtain ⟨slots, hslots⟩ := Answer.exists_mapM_eq_ok hslotOf
  have ht : ofCalls calls Registry.builtin = .ok (⟨slots⟩ : CallTally σ) :=
    Answer.bind_of_ok hslots
  have hslot : ∀ s ∈ slots, s.accumulator.IsNew ∧ s.fallback = none ∧
      ∃ type, Slot.feedType types s.value = .ok type := by
    intro s hs
    obtain ⟨c, hc, hcs⟩ := exists_call_of_mem ht hs
    obtain ⟨a, ha, hlookup⟩ := h c hc
    rw [ha.eq_slot hcs, hlookup]
    exact ⟨(Call.isNew_of_function ha.function).1, rfl, ha.exists_feedType⟩
  refine ⟨⟨slots⟩, ht, ?_, fun s hs => ⟨(hslot s hs).1.1, (hslot s hs).2.2⟩,
    fun s hs => (hslot s hs).2.1⟩
  refine congrArg CallTally.mk (map_eq_self fun s hs => ?_)
  show Slot.mk _ _ _ = s
  rw [(hslot s hs).1.2]

/-- Where all functions of the calls support taking values back, the tally does. -/
theorem supportsRetract_of_ofCalls (ht : ofCalls calls registry = .ok t)
    (h : ∀ c ∈ calls, ∃ a, c.Accepted types registry a ∧ a.supportsRetract = true) :
    t.SupportsRetract := by
  intro s hs
  obtain ⟨c, hc, hcs⟩ := exists_call_of_mem ht hs
  obtain ⟨a, ha, hsupports⟩ := h c hc
  rw [ha.eq_slot hcs]
  exact hsupports

/-- **The values of a tally** that holds some rows are the values of its calls over these rows. -/
theorem Holds.isAnswer {rows : List Row} (h : t.Holds types fresh rows)
    (hfresh : ofCalls calls Registry.builtin = .ok fresh) {k : Nat} {c : Call}
    {a : Accumulator σ} (hc : calls[k]? = some c) (ha : c.Accepted types Registry.builtin a) :
    ∃ v, (Tally.values t)[k]? = some v ∧ c.IsAnswer types rows v := by
  obtain ⟨s, hs, hcs⟩ := exists_slot_of_getElem? hfresh hc
  -- the slot of the call is still at its place, whatever it has taken in
  rw [← h.renew_eq] at hs
  obtain ⟨s', hs', rfl⟩ := Option.map_eq_some_iff.mp ((List.getElem?_map ..).symm.trans hs)
  have hholds := h.slots s' (List.mem_of_getElem? hs')
  obtain ⟨type, vs, htype, hvs, hanswer⟩ := hholds.isAnswer
  have hslot := ha.eq_slot hcs
  rw [Slot.renew, Slot.mk.injEq] at hslot
  obtain ⟨haccumulator, hvalue, -⟩ := hslot
  refine ⟨s'.accumulator.result, ?_, type, vs, hvalue ▸ htype, hvalue ▸ hvs, ?_⟩
  · show (t.slots.map fun s => s.accumulator.result)[k]? = _
    rw [List.getElem?_map, hs']
    rfl
  · rwa [← ha.name_eq, ← haccumulator, Accumulator.name_renew hholds.isBuiltin]

end CallTally

end SqlWindow
