import SqlWindow.Proofs.Group.RangeFrame

set_option autoImplicit false

/-! # The frames of accepted groups

Every group that is accepted over the built-in functions has frames, and these evaluate every
partition of conforming rows: `Frame.IsReady`. This covers all modes and kinds of frames.
-/

namespace SqlWindow

variable {σ : Type} {types : List DataType}

/-- The frame is as built, of built-in functions, and evaluates all partitions of conforming
rows. -/
structure Frame.IsReady (types : List DataType) (f : Frame σ) : Prop where
  renew_eq : f.renew = f
  isBuiltin : f.tally.IsBuiltin
  evaluates : ∀ rows, (∀ row ∈ rows, Row.Conforms row types) → ∃ v, Evaluates rows f v

/-- The values of ready frames on all partitions of conforming rows. -/
theorem Frame.exists_columns {fs : List (Frame σ)} (h : ∀ f ∈ fs, f.IsReady types) :
    ∃ v : Frame σ → List Row → Nat → Row, ∀ rows, (∀ row ∈ rows, Row.Conforms row types) →
      ∀ f ∈ fs, f.Evaluates rows (v f rows) := by
  have hone (p : Frame σ × List Row) : ∃ w, (∀ row ∈ p.2, Row.Conforms row types) → p.1 ∈ fs →
      p.1.Evaluates p.2 w := by
    rcases Classical.em (p.1 ∈ fs ∧ ∀ row ∈ p.2, Row.Conforms row types) with ⟨hf, hrows⟩ | hnot
    · exact ((h p.1 hf).evaluates p.2 hrows).imp fun _ hw _ _ => hw
    · exact ⟨fun _ => [], fun hrows hf => absurd ⟨hf, hrows⟩ hnot⟩
  obtain ⟨v, hv⟩ := Classical.axiomOfChoice hone
  exact ⟨fun f rows => v (f, rows), fun rows hrows f hf => hv (f, rows) hrows hf⟩

/-! ## Lookups -/

namespace OtherRow

variable {c : Call} {a : Accumulator σ} {lookup : Lookup}

/-- The frame of a lookup with its function. -/
def ofLookup (c : Call) (a : Accumulator σ) (lookup : Lookup) : OtherRow σ where
  tally := ⟨[⟨a, c.value?, some lookup.default⟩]⟩
  direction := lookup.direction
  offset := lookup.offset

theorem ofCall_eq_ofLookup (ha : c.Accepted types (Registry.builtin : Registry σ) a)
    (h : c.LooksUp types lookup) : ofCall c Registry.builtin = .ok (ofLookup c a lookup) := by
  have hslot := ha.slot
  rw [h.lookup_eq] at hslot
  have htally : CallTally.ofCalls [c] Registry.builtin =
      .ok ⟨[⟨a, c.value?, some lookup.default⟩]⟩ := by
    rw [CallTally.ofCalls, List.mapM_cons, hslot]
    rfl
  unfold ofCall
  simp only [h.lookup_eq]
  rw [Answer.bind_of_ok htally]
  rfl

theorem renew_tally_ofLookup (ha : c.Accepted types (Registry.builtin : Registry σ) a)
    (lookup : Lookup) : (ofLookup c a lookup).tally.renew = (ofLookup c a lookup).tally := by
  show CallTally.mk [⟨a.renew, _, _⟩] = _
  rw [(Call.isNew_of_function ha.function).1.2]
  rfl

theorem looksUp_tally_ofLookup (hmade : c.IsMade)
    (ha : c.Accepted types (Registry.builtin : Registry σ) a) (h : c.LooksUp types lookup) :
    (ofLookup c a lookup).tally.LooksUp types := by
  intro s hs
  rw [List.mem_singleton.mp hs]
  obtain ⟨type, htype⟩ := h.default
  exact ⟨ha.isLookup hmade (by rw [h.lookup_eq]; nofun), ha.exists_feedType, _, type, rfl, htype⟩

/-- The frame of a lookup answers every row of a partition. -/
theorem exists_evaluates_ofLookup (hmade : c.IsMade)
    (ha : c.Accepted types (Registry.builtin : Registry σ) a) (h : c.LooksUp types lookup)
    {rows : List Row} (hrows : ∀ row ∈ rows, Row.Conforms row types) :
    ∃ v, Frame.Evaluates rows (.otherRow (ofLookup c a lookup)) v ∧
      ∀ i, i < rows.length → ∀ current, rows[i]? = some current →
        Answers { ofLookup c a lookup with length := rows.length } (ofLookup c a lookup).tally rows
          i current (v i) :=
  Frame.exists_evaluates_otherRow (renew_tally_ofLookup ha lookup)
    (looksUp_tally_ofLookup hmade ha h) hrows lookup.direction h.offset

theorem isReady_ofLookup (hmade : c.IsMade)
    (ha : c.Accepted types (Registry.builtin : Registry σ) a) (h : c.LooksUp types lookup) :
    (Frame.otherRow (ofLookup c a lookup)).IsReady types where
  renew_eq := congrArg (fun t => Frame.otherRow ⟨t, lookup.direction, lookup.offset, 0⟩)
    (renew_tally_ofLookup ha lookup)
  isBuiltin := (looksUp_tally_ofLookup hmade ha h).isBuiltin
  evaluates _ hrows := (exists_evaluates_ofLookup hmade ha h hrows).imp fun _ => And.left

end OtherRow

/-! ## Groups -/

namespace WindowGroup

variable {g : WindowGroup} {position : Nat}

theorem Framed.isReady {W : List Row → Nat → List Row → Prop} {f : Frame σ} {fresh : CallTally σ}
    (h : g.Framed types W f fresh) : f.IsReady types where
  renew_eq := h.serves.renew_eq
  isBuiltin := by
    rw [h.serves.tally_eq]
    exact h.isFramed.isBuiltin
  evaluates rows hrows := (h.serves.evaluates rows hrows).imp fun _ => And.left

/-- **Every accepted group has frames** that evaluate all partitions of conforming rows. Only of
lookups it matters how the calls were made. -/
theorem exists_frames (hcheck : g.check position types (Registry.builtin : Registry σ) = .ok ())
    (hmade : g.mode = .offset → ∀ c ∈ g.calls, c.IsMade) :
    ∃ frames : List (Frame σ), Frame.ofGroup g Registry.builtin = .ok frames ∧
      ∀ f ∈ frames, f.IsReady types := by
  obtain ⟨hfields, hlookups, hframed⟩ := accepted_of_check hcheck
  have hone {W : List Row → Nat → List Row → Prop} {f : Frame σ} {fresh : CallTally σ}
      (h : g.Framed types W f fresh) : ∃ frames : List (Frame σ),
        Frame.ofGroup g Registry.builtin = .ok frames ∧ ∀ f ∈ frames, f.IsReady types :=
    ⟨[f], h.frames, fun f' hf' => List.mem_singleton.mp hf' ▸ h.isReady⟩
  cases hmode : g.mode with
  | row =>
    obtain ⟨shape, hshape⟩ := hframed (by rw [hmode]; nofun)
    obtain ⟨f, fresh, _, _, _, _, h⟩ := exists_framed_of_mode_eq_row hmode hshape
    exact hone h
  | range =>
    obtain ⟨shape, hshape⟩ := hframed (by rw [hmode]; nofun)
    obtain ⟨f, fresh, _, _, _, _, h⟩ := exists_framed_of_mode_eq_range hmode hfields hshape
    exact hone h
  | insensitive =>
    obtain ⟨shape, hshape⟩ := hframed (by rw [hmode]; nofun)
    obtain ⟨f, fresh, h⟩ := exists_hasFrame_of_mode_eq_insensitive hmode hshape
    exact hone h.framed
  | offset =>
    have hready : ∀ c ∈ g.calls, ∃ f : Frame σ,
        Frame.otherRow <$> OtherRow.ofCall c Registry.builtin = .ok f ∧ f.IsReady types := by
      intro c hc
      obtain ⟨a, lookup, ha, hlooksUp⟩ := hlookups hmode c hc
      exact ⟨_, by rw [OtherRow.ofCall_eq_ofLookup ha hlooksUp]; rfl,
        OtherRow.isReady_ofLookup (hmade hmode c hc) ha hlooksUp⟩
    obtain ⟨frames, hframes⟩ := Answer.exists_mapM_eq_ok fun c hc =>
      (hready c hc).imp fun _ => And.left
    refine ⟨frames, by rw [Frame.ofGroup, hmode]; exact hframes, fun f hf => ?_⟩
    obtain ⟨c, hc, heq⟩ := Answer.exists_of_mem_mapM hframes hf
    obtain ⟨f', hf', hready'⟩ := hready c hc
    rw [hf'] at heq
    exact Except.ok.inj heq ▸ hready'

end WindowGroup

end SqlWindow
