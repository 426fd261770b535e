import SqlWindow.Proofs.Operator.Driven

set_option autoImplicit false

/-! # How operators are built

An accepted specification has an operator, whatever the registry and the options are. The operator
has a slot for each call of the specification, in the order of the calls, and its functions are
driven from those of the calls from the start.
-/

namespace SqlWindow

variable {σ : Type} {types : List DataType} {registry : Registry σ}

/-! ## Frames of accepted groups -/

theorem CallTally.exists_ofCalls_of_accepted {calls : List Call}
    (h : ∀ c ∈ calls, ∃ a, c.Accepted types registry a) :
    ∃ t : CallTally σ, ofCalls calls registry = .ok t := by
  have hslot : ∀ c ∈ calls, ∃ s, Slot.ofCall registry c = .ok s := fun c hc => by
    obtain ⟨a, ha⟩ := h c hc
    exact ⟨_, ha.slot⟩
  obtain ⟨slots, hslots⟩ := Answer.exists_mapM_eq_ok hslot
  exact ⟨⟨slots⟩, Answer.bind_of_ok hslots⟩

theorem OtherRow.exists_ofCall {c : Call} {a : Accumulator σ} {lookup : Lookup}
    (ha : c.Accepted types registry a) (h : c.LooksUp types lookup) :
    ∃ f, ofCall c registry = .ok f := by
  have hone : ∀ c' ∈ [c], ∃ a, c'.Accepted types registry a := by
    intro c' hc'
    rw [List.mem_singleton.mp hc']
    exact ⟨a, ha⟩
  obtain ⟨t, ht⟩ := CallTally.exists_ofCalls_of_accepted hone
  unfold ofCall
  simp only [h.lookup_eq]
  exact ⟨_, Answer.bind_of_ok ht⟩

namespace Frame

variable {lower upper : FrameBound} {shape : FrameShape}

theorem exists_ofRows_of_distances (tally : CallTally σ) (shape : FrameShape) {l u : Option Int64}
    (hlower : lower.LiesAt l) (hupper : upper.LiesAt u) :
    ∃ f, ofRows tally lower upper shape = .ok f := by
  have hdistance := RowDistance.ofBounds_of_liesAt tally hlower hupper
  cases shape with
  | unbounded => exact ⟨_, rfl⟩
  | currentRow => exact ⟨_, rfl⟩
  | growing =>
    simp only [ofRows, Answer.bind_of_ok hdistance]
    split <;> exact ⟨_, rfl⟩
  | _ =>
    simp only [ofRows, Answer.bind_of_ok hdistance]
    split <;> exact ⟨_, rfl⟩

end Frame

theorem WindowGroup.FrameAccepted.exists_ofCalls {g : WindowGroup} {shape : FrameShape}
    (h : g.FrameAccepted types registry shape) :
    ∃ t : CallTally σ, CallTally.ofCalls g.calls registry = .ok t :=
  CallTally.exists_ofCalls_of_accepted fun c hc => (h.calls c hc).imp fun _ => And.left

/-- **An accepted group has frames**, whatever the registry. -/
theorem WindowGroup.exists_ofGroup {g : WindowGroup} {position : Nat}
    (hcheck : g.check position types registry = .ok ()) :
    ∃ fs : List (Frame σ), Frame.ofGroup g registry = .ok fs := by
  obtain ⟨hfields, hlookups, hframed⟩ := accepted_of_check hcheck
  unfold Frame.ofGroup
  cases hmode : g.mode with
  | offset =>
    refine Answer.exists_mapM_eq_ok fun c hc => ?_
    obtain ⟨a, lookup, ha, hlookup⟩ := hlookups hmode c hc
    obtain ⟨f, hf⟩ := OtherRow.exists_ofCall ha hlookup
    exact ⟨.otherRow f, by rw [hf]; rfl⟩
  | insensitive =>
    obtain ⟨shape, h⟩ := hframed (by rw [hmode]; nofun)
    obtain ⟨t, ht⟩ := h.exists_ofCalls
    exact ⟨_, Answer.bind_of_ok ht⟩
  | row =>
    obtain ⟨shape, h⟩ := hframed (by rw [hmode]; nofun)
    obtain ⟨t, ht⟩ := h.exists_ofCalls
    obtain ⟨lower, upper, hlower, hupper⟩ := exists_distances hmode h
    obtain ⟨f, hf⟩ := Frame.exists_ofRows_of_distances t shape hlower hupper
    simp only [Answer.bind_of_ok ht, Answer.bind_of_ok h.shape_eq, Answer.bind_of_ok hf]
    exact ⟨_, rfl⟩
  | range =>
    obtain ⟨shape, h⟩ := hframed (by rw [hmode]; nofun)
    obtain ⟨t, ht⟩ := h.exists_ofCalls
    obtain ⟨lower, upper, hlower, hupper, -, -⟩ := exists_places hmode hfields h
    have hshape := h.shape_eq
    rw [unit_eq_of_mode_eq_range hmode] at hshape
    rcases Frame.ofRange_cases t hshape hlower hupper with ⟨-, -, hf⟩ | ⟨-, hf⟩ <;>
      simp only [Answer.bind_of_ok ht, Answer.bind_of_ok h.shape_eq, Answer.bind_of_ok hf] <;>
      exact ⟨_, rfl⟩

namespace WindowOperator

variable {spec : WindowSpec} {op₀ : WindowOperator σ}

theorem exists_forwardFrame {g : WindowGroup} {position : Nat}
    (hcheck : g.check position types registry = .ok ()) :
    ∃ f, forwardFrame registry g = .ok f := by
  obtain ⟨-, hlookups, hframed⟩ := WindowGroup.accepted_of_check hcheck
  have haccepted : ∀ c ∈ g.calls, ∃ a, c.Accepted types registry a := by
    intro c hc
    by_cases hmode : g.mode = .offset
    · obtain ⟨a, -, ha, -⟩ := hlookups hmode c hc
      exact ⟨a, ha⟩
    · obtain ⟨shape, h⟩ := hframed hmode
      exact (h.calls c hc).imp fun _ => And.left
  obtain ⟨t, ht⟩ := CallTally.exists_ofCalls_of_accepted haccepted
  exact ⟨_, Answer.bind_of_ok ht⟩

/-- **An accepted specification has an operator**, whatever the registry and the options. -/
theorem exists_ofSpec (hcheck : spec.check types registry = .ok ()) (options : Options)
    (canSpill : Bool) : ∃ op₀, ofSpec spec types options canSpill registry = .ok op₀ := by
  obtain ⟨-, hgroups⟩ := WindowSpec.accepted_of_check hcheck
  simp only [ofSpec_eq_ok_iff]
  cases hneeds : spec.needsBuffering registry with
  | true =>
    obtain ⟨frames, hframes⟩ := Answer.exists_mapM_eq_ok fun g hg =>
      (hgroups g hg).elim fun _ => WindowGroup.exists_ofGroup
    exact ⟨_, hcheck, .inl ⟨rfl, frames, hframes, rfl⟩⟩
  | false =>
    obtain ⟨frames, hframes⟩ := Answer.exists_mapM_eq_ok fun g hg =>
      (hgroups g hg).elim fun _ => exists_forwardFrame
    exact ⟨_, hcheck, .inr ⟨rfl, frames, hframes, rfl⟩⟩

section

variable {options : Options} {canSpill : Bool}

theorem frame_of_ofSpec (h : ofSpec spec types options canSpill registry = .ok op₀) {f : Frame σ}
    (hf : f ∈ op₀.frames) :
    (∃ k, f = .forward k) ∨
      ∃ g ∈ spec.groups, ∃ fs, Frame.ofGroup g registry = .ok fs ∧ f ∈ fs := by
  obtain ⟨-, ⟨-, frames, hframes, rfl⟩ | ⟨-, frames, hframes, rfl⟩⟩ := ofSpec_eq_ok_iff.mp h
  · obtain ⟨fs, hfs, hf⟩ := List.mem_flatten.mp hf
    obtain ⟨g, hg, hgfs⟩ := Answer.exists_of_mem_mapM hframes hfs
    exact .inr ⟨g, hg, fs, hgfs, hf⟩
  · obtain ⟨k, -, rfl⟩ := List.mem_map.mp hf
    exact .inl ⟨k, rfl⟩

/-- In frames that look up other rows all calls are lookups. -/
theorem fallback_of_ofSpec (h : ofSpec spec types options canSpill registry = .ok op₀)
    {f : Frame σ} (hf : f ∈ op₀.frames) (hother : f.isOtherRow = true) :
    ∀ s ∈ f.tally.slots, s.fallback ≠ none := by
  rcases frame_of_ofSpec h hf with ⟨k, rfl⟩ | ⟨g, -, fs, hfs, hf⟩
  · cases hother
  · exact (WindowGroup.isBuilt_of_ofGroup hfs).fallback f hf hother

/-- **There is a slot for each call**, in the order of the calls. -/
theorem map_calls_of_ofSpec (h : ofSpec spec types options canSpill registry = .ok op₀) :
    (spec.groups.flatMap WindowGroup.calls).map (Slot.ofCall registry) =
      op₀.slots.map Except.ok := by
  obtain ⟨-, ⟨-, frames, hframes, rfl⟩ | ⟨-, frames, hframes, rfl⟩⟩ := ofSpec_eq_ok_iff.mp h
  · rw [slots, WindowOperator.frames, Frame.slots_flatten]
    exact WindowSpec.map_calls_of_mapM (fun _ _ hfs => (WindowGroup.isBuilt_of_ofGroup hfs).slots)
      hframes
  · rw [slots_rowByRow]
    refine WindowSpec.map_calls_of_mapM (fun g f hf => ?_) hframes
    obtain ⟨t, ht, hf⟩ := Answer.ok_of_bind_ok hf
    cases hf
    exact CallTally.map_slots_of_ofCalls ht

theorem exists_call_of_mem_slots (h : ofSpec spec types options canSpill registry = .ok op₀)
    {s : Slot σ} (hs : s ∈ op₀.slots) :
    ∃ c ∈ spec.groups.flatMap WindowGroup.calls, Slot.ofCall registry c = .ok s := by
  refine List.mem_map.mp ?_
  rw [map_calls_of_ofSpec h]
  exact List.mem_map_of_mem hs

/-- **From the start** functions are driven from those the operator was built with. -/
theorem isDriven_of_ofSpec (h : ofSpec spec types options canSpill registry = .ok op₀)
    (mayRetract : Slot σ → Prop) : IsDriven mayRetract op₀ op₀ := by
  obtain ⟨-, ⟨-, frames, -, rfl⟩ | ⟨-, frames, -, rfl⟩⟩ := ofSpec_eq_ok_iff.mp h
  · have hself (f : Frame σ) : f.IsDriven mayRetract f :=
      Frame.carries_self (CallTally.driven_self fun _ _ => trivial)
    have hempty : RowStore.Holds { options, canSpill } [] :=
      RowStore.holds_of_spill_eq_none rfl rfl
    exact .byPartition ⟨List.forall₂_same.mpr fun f _ => hself f, hempty, .refl _⟩
  · exact .rowByRow (List.forall₂_same.mpr fun f _ =>
      ⟨CallTally.driven_self fun _ _ => trivial, rfl⟩)

end

end WindowOperator

end SqlWindow
