import SqlWindow.Proofs.Frame.Obeys
import SqlWindow.Proofs.Group.Calls

set_option autoImplicit false

/-! # How the frames of a group are built

The frames of a group have a slot for each of its calls, in the order of the calls. Frames take
rows back in groups of lookups, and where rows leave the frame as its shape tells; all others only
take rows in. This does not ask for an accepted group, and it holds for all registries.
-/

namespace SqlWindow

variable {σ : Type} {registry : Registry σ}

/-! ## Frames of each kind -/

theorem OtherRow.of_ofCall {c : Call} {f : OtherRow σ} (h : ofCall c registry = .ok f) :
    ∃ lookup s, c.lookup = some lookup ∧ Slot.ofCall registry c = .ok s ∧
      f = { tally := ⟨[s]⟩, direction := lookup.direction, offset := lookup.offset } := by
  unfold ofCall at h
  cases hlookup : c.lookup with
  | none =>
    rw [hlookup] at h
    cases h
  | some lookup =>
    rw [hlookup] at h
    obtain ⟨⟨slots⟩, ht, h⟩ := Answer.ok_of_bind_ok h
    cases h
    obtain ⟨s, hslots, hs⟩ := List.map_eq_singleton_iff.mp (CallTally.map_slots_of_ofCalls ht).symm
    exact ⟨lookup, s, rfl, hs.symm, by rw [show slots = [s] from hslots]⟩

theorem Slot.fallback_of_ofCall {c : Call} {s : Slot σ} (h : ofCall registry c = .ok s) :
    s.fallback = c.lookup.map Lookup.default := by
  obtain ⟨a, -, h⟩ := Answer.ok_of_bind_ok h
  obtain ⟨⟨⟩, -, h⟩ := Answer.ok_of_bind_ok h
  cases h
  rfl

/-- Lookups, and no other calls, have a default. -/
theorem Slot.isSome_fallback {c : Call} {s : Slot σ} (h : ofCall registry c = .ok s) :
    s.fallback.isSome = c.isLookup := by
  rw [fallback_of_ofCall h, Option.isSome_map, Call.isLookup]

theorem Slot.function_of_ofCall {c : Call} {s : Slot σ} (h : ofCall registry c = .ok s) :
    c.function registry = .ok s.accumulator := by
  obtain ⟨a, ha, h⟩ := Answer.ok_of_bind_ok h
  obtain ⟨⟨⟩, houtcome, h⟩ := Answer.ok_of_bind_ok h
  cases h
  rw [Call.function, Answer.bind_of_ok ha]
  exact Answer.bind_of_ok houtcome

/-- What holds of all functions of a registry, whatever arguments they are configured with, holds of
the function of a call. -/
theorem Slot.of_ofCall {Q : Accumulator σ → Prop} (hregistry : ∀ p ∈ registry.entries, Q p.2)
    (hconfigure : ∀ a, Q a → ∀ arguments, Q ((Accumulator.configure arguments).outcome a).2)
    {c : Call} {s : Slot σ} (h : ofCall registry c = .ok s) : Q s.accumulator := by
  obtain ⟨a, ha, h⟩ := Answer.ok_of_bind_ok h
  obtain ⟨⟨⟩, -, h⟩ := Answer.ok_of_bind_ok h
  cases h
  exact hconfigure a (Registry.of_create hregistry ha) c.literals

namespace Frame

variable {tally : CallTally σ} {unit : FrameUnit} {lower upper : FrameBound} {shape : FrameShape}
  {f : Frame σ}

/-- The frame is one over rows and has this tally. It takes rows back only where rows leave it. -/
structure IsOver (tally : CallTally σ) (retracts : Prop) (f : Frame σ) : Prop where
  tally_eq : f.tally = tally
  isOtherRow : f.isOtherRow = false
  retracts : f.Removes → retracts

theorem isOver_of_ofRows (hshape : FrameShape.ofBounds unit lower upper = .ok shape)
    (h : ofRows tally lower upper shape = .ok f) : f.IsOver tally (shape.retracts = true) := by
  -- between distances rows go out unless the lower one is missing, as in a growing frame
  have hdistance (hlower : shape.retracts = true ∨ lower = .unboundedPreceding)
      (h : (RowDistance.ofBounds tally lower upper >>= fun k => pure (rowDistance k)) = .ok f) :
      f.IsOver tally (shape.retracts = true) := by
    obtain ⟨k, hk, hf⟩ := Answer.ok_of_bind_ok h
    obtain ⟨l, hl, hk⟩ := Answer.ok_of_bind_ok hk
    obtain ⟨u, -, hk⟩ := Answer.ok_of_bind_ok hk
    cases hk
    cases hf
    refine ⟨rfl, rfl, fun hremoves => hlower.resolve_right ?_⟩
    rintro rfl
    cases hl
    exact hremoves rfl
  rcases FrameShape.cases_of_ofBounds hshape with
    ⟨rfl, -, -⟩ | ⟨rfl, hlower⟩ | ⟨rfl, -, -, -⟩ | hretracts
  · cases h
    exact ⟨rfl, rfl, False.elim⟩
  · simp only [ofRows] at h
    split at h
    · cases h
      exact ⟨rfl, rfl, False.elim⟩
    · exact hdistance (.inr hlower) h
  · cases h
    exact ⟨rfl, rfl, False.elim⟩
  · cases shape <;> cases hretracts <;> exact hdistance (.inl rfl) h

theorem isOver_of_ofRange {sort : List SortKey}
    (hshape : FrameShape.ofBounds unit lower upper = .ok shape)
    (h : ofRange tally sort lower upper shape = .ok f) :
    f.IsOver tally (shape.retracts = true) := by
  have hdistance (hlower : shape.retracts = true ∨ lower = .unboundedPreceding)
      (h : (KeyDistance.ofBounds tally sort lower upper >>= fun k => pure (keyDistance k)) =
        .ok f) : f.IsOver tally (shape.retracts = true) := by
    obtain ⟨k, hk, hf⟩ := Answer.ok_of_bind_ok h
    obtain ⟨l, hl, hk⟩ := Answer.ok_of_bind_ok hk
    obtain ⟨u, -, hk⟩ := Answer.ok_of_bind_ok hk
    cases hk
    cases hf
    refine ⟨rfl, rfl, fun hremoves => hlower.resolve_right ?_⟩
    rintro rfl
    cases hl
    exact hremoves rfl
  rcases FrameShape.cases_of_ofBounds hshape with
    ⟨rfl, -, -⟩ | ⟨rfl, hlower⟩ | ⟨rfl, -, -, -⟩ | hretracts
  · cases h
    exact ⟨rfl, rfl, False.elim⟩
  · exact hdistance (.inr hlower) h
  · cases h
  · cases shape <;> cases hretracts <;> exact hdistance (.inl rfl) h

end Frame

/-! ## Groups -/

/-- The slots of some frames, in the order of the frames. -/
def Frame.slots (fs : List (Frame σ)) : List (Slot σ) := fs.flatMap fun f => f.tally.slots

theorem Frame.slots_flatten (fss : List (List (Frame σ))) :
    slots fss.flatten = fss.flatMap slots := by
  rw [slots, List.flatten_eq_flatMap, List.flatMap_assoc]
  rfl

/-- The frames of a group: there is a slot for each call, slots that look up other rows have a
default, and frames take rows back in groups of lookups and where the shape says that rows leave the
frame. -/
structure WindowGroup.IsBuilt (g : WindowGroup) (registry : Registry σ) (fs : List (Frame σ)) :
    Prop where
  slots : g.calls.map (Slot.ofCall registry) = (Frame.slots fs).map Except.ok
  fallback : ∀ f ∈ fs, f.isOtherRow = true → ∀ s ∈ f.tally.slots, s.fallback ≠ none
  retracts : ∀ f ∈ fs, f.Removes → g.mode ≠ .offset →
    ∃ shape, FrameShape.ofBounds g.unit g.lower g.upper = .ok shape ∧ g.Retracts shape

namespace WindowGroup

variable {g : WindowGroup} {fs : List (Frame σ)}

theorem IsBuilt.exists_call (h : g.IsBuilt registry fs) {f : Frame σ} (hf : f ∈ fs) {s : Slot σ}
    (hs : s ∈ f.tally.slots) : ∃ c ∈ g.calls, Slot.ofCall registry c = .ok s := by
  refine List.mem_map.mp ?_
  rw [h.slots]
  exact List.mem_map_of_mem (List.mem_flatMap.mpr ⟨f, hf, hs⟩)

theorem isBuilt_of_isOver {t : CallTally σ} {f : Frame σ} {retracts : Prop}
    (ht : CallTally.ofCalls g.calls registry = .ok t) (h : f.IsOver t retracts)
    (hretracts : retracts → ∃ shape, FrameShape.ofBounds g.unit g.lower g.upper = .ok shape ∧
      g.Retracts shape) : g.IsBuilt registry [f] where
  slots := by
    rw [CallTally.map_slots_of_ofCalls ht, ← h.tally_eq, Frame.slots, List.flatMap_singleton]
  fallback f' hf' hother := by
    rw [List.mem_singleton.mp hf', h.isOtherRow] at hother
    cases hother
  retracts f' hf' hremoves _ := by
    rw [List.mem_singleton.mp hf'] at hremoves
    exact hretracts (h.retracts hremoves)

/-- Lookups have a frame of one slot each. -/
theorem slots_of_lookups {calls : List Call}
    (h : calls.map (fun c => Frame.otherRow <$> OtherRow.ofCall c registry) = fs.map Except.ok) :
    calls.map (Slot.ofCall registry) = (Frame.slots fs).map Except.ok := by
  induction calls generalizing fs with
  | nil =>
    rw [List.map_eq_nil_iff.mp h.symm]
    rfl
  | cons c calls ih =>
    cases fs with
    | nil => cases h
    | cons f fs =>
      rw [List.map_cons, List.map_cons, List.cons.injEq] at h
      obtain ⟨k, hk, rfl⟩ := Answer.map_eq_ok_iff.mp h.1
      obtain ⟨lookup, s, -, hs, rfl⟩ := OtherRow.of_ofCall hk
      rw [List.map_cons, hs, ih h.2]
      rfl

/-- **The frames of a group**, in whatever mode it is. -/
theorem isBuilt_of_ofGroup (h : Frame.ofGroup g registry = .ok fs) : g.IsBuilt registry fs := by
  unfold Frame.ofGroup at h
  cases hmode : g.mode <;> rw [hmode] at h
  case offset =>
    refine ⟨slots_of_lookups (Answer.mapM_eq_ok_iff.mp h), fun f hf _ s hs => ?_,
      fun _ _ _ hnot => absurd hmode hnot⟩
    obtain ⟨c, -, hc⟩ := Answer.exists_of_mem_mapM h hf
    obtain ⟨k, hk, rfl⟩ := Answer.map_eq_ok_iff.mp hc
    obtain ⟨lookup, s', hlookup, hs', rfl⟩ := OtherRow.of_ofCall hk
    rw [List.mem_singleton.mp hs, Slot.fallback_of_ofCall hs', hlookup]
    nofun
  all_goals obtain ⟨t, ht, h⟩ := Answer.ok_of_bind_ok h
  case insensitive =>
    cases h
    exact isBuilt_of_isOver ht ⟨rfl, rfl, False.elim⟩ False.elim
  all_goals
    obtain ⟨shape, hshape, h⟩ := Answer.ok_of_bind_ok h
    obtain ⟨f, hf, h⟩ := Answer.ok_of_bind_ok h
    cases h
  case row =>
    exact isBuilt_of_isOver ht (Frame.isOver_of_ofRows hshape hf) fun hretracts =>
      ⟨shape, hshape, .inl hmode, hretracts⟩
  case range =>
    exact isBuilt_of_isOver ht (Frame.isOver_of_ofRange hshape hf) fun hretracts =>
      ⟨shape, hshape, .inr hmode, hretracts⟩

end WindowGroup

/-- Where what is built of each group has slots for its calls, all together have slots for all
calls. -/
theorem WindowSpec.map_calls_of_mapM {β : Type} {build : WindowGroup → Except Error β}
    {slots : β → List (Slot σ)} (hbuild : ∀ g b, build g = .ok b →
      g.calls.map (Slot.ofCall registry) = (slots b).map Except.ok)
    {groups : List WindowGroup} {bs : List β} (h : groups.mapM build = .ok bs) :
    (groups.flatMap WindowGroup.calls).map (Slot.ofCall registry) =
      (bs.flatMap slots).map Except.ok := by
  rw [Answer.mapM_eq_ok_iff] at h
  induction groups generalizing bs with
  | nil =>
    rw [List.map_eq_nil_iff.mp h.symm]
    rfl
  | cons g groups ih =>
    cases bs with
    | nil => cases h
    | cons b bs =>
      rw [List.map_cons, List.map_cons, List.cons.injEq] at h
      rw [List.flatMap_cons, List.map_append, hbuild g b h.1, ih h.2, List.flatMap_cons,
        List.map_append]

end SqlWindow
