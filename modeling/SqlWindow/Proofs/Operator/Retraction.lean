import SqlWindow.Proofs.Operator.Built

set_option autoImplicit false

/-! # Where values are taken back

Whether a function supports taking values back is asked once, when a specification is checked. From
then on values are taken back only from functions that do: frames that rows leave are built only for
groups whose shape was checked for it.

Lookups are the exception. Their frames take a value back for every row that looks past the
partition, and no check asks for it. So the answers of an operator are free of errors about this
only where the functions of lookups support it too, as LEAD and LAG do.
-/

namespace SqlWindow

variable {σ ω : Type} {types : List DataType} {registry : Registry σ}

/-- The function of the call, as it is configured, supports taking values back. -/
def Call.supportsRetract (c : Call) (registry : Registry σ) : Bool :=
  match c.function registry with
  | .ok a => a.supportsRetract
  | .error _ => false

/-- The function may be asked to take values back: it supports this, or it belongs to a lookup. -/
def Slot.MayRetract (s : Slot σ) : Prop :=
  s.fallback.isSome = true ∨ s.accumulator.supportsRetract = true

theorem Slot.mayRetract_iff {c : Call} {s : Slot σ} (h : ofCall registry c = .ok s) :
    s.MayRetract ↔ c.isLookup = true ∨ s.accumulator.supportsRetract = true := by
  rw [MayRetract, isSome_fallback h]

namespace WindowOperator

variable {spec : WindowSpec} {options : Options} {canSpill : Bool} {op₀ : WindowOperator σ}

/-- **Frames take rows back** only where all their functions may be asked for it. -/
theorem mayRetract_of_removes (h : ofSpec spec types options canSpill registry = .ok op₀)
    {f : Frame σ} (hf : f ∈ op₀.frames) (hremoves : f.Removes) :
    ∀ s ∈ f.tally.slots, s.MayRetract := by
  rcases frame_of_ofSpec h hf with ⟨k, rfl⟩ | ⟨g, hg, fs, hfs, hf⟩
  · exact hremoves.elim
  intro s hs
  have hbuilt := WindowGroup.isBuilt_of_ofGroup hfs
  obtain ⟨c, hc, hslot⟩ := hbuilt.exists_call hf hs
  obtain ⟨position, hgroup⟩ := (WindowSpec.accepted_of_check (ofSpec_eq_ok_iff.mp h).1).2 g hg
  obtain ⟨-, haccepted, hframed⟩ := WindowGroup.accepted_of_check hgroup
  by_cases hmode : g.mode = .offset
  · obtain ⟨a, lookup, -, hlookup⟩ := haccepted hmode c hc
    have hlookup : c.isLookup = true := by
      rw [Call.isLookup, hlookup.lookup_eq]
      rfl
    exact .inl ((Slot.isSome_fallback hslot).trans hlookup)
  · -- the shape that the frame was built with is the one that was checked
    obtain ⟨shape, hshape⟩ := hframed hmode
    obtain ⟨shape', hshape', hretracts⟩ := hbuilt.retracts f hf hremoves hmode
    obtain rfl : shape = shape' := Except.ok.inj (hshape.shape_eq.symm.trans hshape')
    obtain ⟨a, ha, -, hsupports⟩ := hshape.calls c hc
    rw [ha.eq_slot hslot]
    exact .inr (hsupports hretracts)

/-- The frames of an accepted specification take values back only from functions that may be asked
for it. Either these do not answer that they do not support it, or all errors are expected. -/
theorem isDrivable_of_ofSpec (h : ofSpec spec types options canSpill registry = .ok op₀)
    {F : Error → Prop} (hF : ∀ e, e.isAboutRetraction = false → F e)
    (hall : (∀ s ∈ op₀.slots, s.MayRetract → s.accumulator.TakesBack) ∨ ∀ e, F e) :
    ∀ f ∈ op₀.frames, f.IsDrivable Slot.MayRetract F := by
  intro f hf
  refine ⟨fallback_of_ofSpec h hf, fun Suits => CallTally.obeys_driven hF fun hremoves s₀ hs₀ => ?_⟩
  have hmay := mayRetract_of_removes h hf hremoves s₀ hs₀
  refine ⟨hmay, fun a ha v e he => ?_⟩
  rcases hall with htakesBack | hall
  · obtain ⟨told, -, hdriven⟩ := ha
    have hstart := htakesBack s₀ (List.mem_flatMap.mpr ⟨f, hf, hs₀⟩) hmay
    exact hF e (((hdriven.takesBack hstart).retract v).1 e he)
  · exact hall e

/-- The functions of an accepted specification take values back wherever they may be asked for it,
if those of lookups support it and all do what they say. -/
theorem takesBack_of_ofSpec (h : ofSpec spec types options canSpill registry = .ok op₀)
    (hlookups : ∀ c ∈ spec.groups.flatMap WindowGroup.calls, c.isLookup = true →
      c.supportsRetract registry = true) (hregistry : registry.HonorsSupport) :
    ∀ s ∈ op₀.slots, s.MayRetract → s.accumulator.TakesBack := by
  intro s hs hmay
  obtain ⟨c, hc, hslot⟩ := exists_call_of_mem_slots h hs
  have hsupports : s.accumulator.supportsRetract = true := by
    refine ((Slot.mayRetract_iff hslot).mp hmay).elim (fun hlookup => ?_) id
    have hcall := hlookups c hc hlookup
    rwa [Call.supportsRetract, Slot.function_of_ofCall hslot] at hcall
  have hhonors : s.accumulator.HonorsSupport :=
    Slot.of_ofCall hregistry (fun _ => Accumulator.HonorsSupport.configure) hslot
  exact hhonors.takesBack hsupports

/-- **Values are taken back only where that is supported**, lookups apart. Every accepted
specification has an operator. Through any steps, also those that fail, each of its functions was
asked to take values back only if, as it was configured for its call, it supports that, or if the
call is a lookup. And if the functions of lookups support it, no step fails because a function does
not, as long as functions do what they say and the receiver does not refuse rows for this reason. -/
theorem retracts_only_where_supported (hcheck : spec.check types registry = .ok ())
    (options : Options) (canSpill : Bool) (sink : Sink ω) (w : ω) :
    ∃ op₀, ofSpec spec types options canSpill registry = .ok op₀ ∧
      ∀ steps : List Step,
        List.Forall₂ (fun c s => ∃ a₀ told, c.function registry = .ok a₀ ∧
            a₀.Driven (c.isLookup = true ∨ a₀.supportsRetract = true) told s.accumulator)
          (spec.groups.flatMap WindowGroup.calls) (after sink steps (op₀, w)).1.slots ∧
        ((∀ c ∈ spec.groups.flatMap WindowGroup.calls, c.isLookup = true →
            c.supportsRetract registry = true) →
          registry.HonorsSupport → sink.FailsWith (fun e => e.isAboutRetraction = false) →
            ∀ r ∈ records sink steps (op₀, w), ∀ e, r.answer = .error e →
              e.isAboutRetraction = false) := by
  obtain ⟨op₀, hop₀⟩ := exists_ofSpec hcheck options canSpill
  have hstart := isDriven_of_ofSpec hop₀ Slot.MayRetract
  refine ⟨op₀, hop₀, fun steps => ⟨?_, fun hlookups hregistry hsink => ?_⟩⟩
  · have hdrivable := isDrivable_of_ofSpec (F := fun _ => True) hop₀ (fun _ _ => trivial)
      (.inr fun _ => trivial)
    have hsink : sink.FailsWith fun _ => True := fun _ _ _ _ _ => trivial
    have hafter :=
      slots_of_isDriven (hstart.after (fun _ _ => trivial) hsink hdrivable steps w)
    refine (Answer.forall₂_of_map_eq (map_calls_of_ofSpec hop₀) hafter).imp fun c s hs => ?_
    obtain ⟨s₀, hs₀, told, -, hdriven⟩ := hs
    rw [Slot.mayRetract_iff hs₀] at hdriven
    exact ⟨s₀.accumulator, told, Slot.function_of_ofCall hs₀, hdriven⟩
  · have htakesBack := takesBack_of_ofSpec hop₀ hlookups hregistry
    have hdrivable := isDrivable_of_ofSpec hop₀ (fun _ he => he) (.inl htakesBack)
    exact hstart.records (fun _ he => he) hsink hdrivable steps w

/-- `SUM($0)` over the row before and the current one, which leave the frame in turn, and
`LEAD($0)`, which looks past the end of the partition. -/
def sumAndNext : WindowSpec where
  groups :=
    [{ partition := [], sort := [⟨0, true⟩], unit := .rows, lower := .preceding 1,
       calls := [.onField "SUM" 0] },
     { partition := [], sort := [⟨0, true⟩], calls := [.onField "LEAD" 0] }]

theorem retracts_only_where_supported_sumAndNext :
    ∃ op₀, ofSpec sumAndNext [.integer] {} true (Registry.builtin : Registry Empty) = .ok op₀ ∧
      ∀ steps : List Step,
        List.Forall₂ (fun c s => ∃ a₀ told, Call.function c Registry.builtin = .ok a₀ ∧
            a₀.Driven (c.isLookup = true ∨ a₀.supportsRetract = true) told s.accumulator)
          (sumAndNext.groups.flatMap WindowGroup.calls)
          (after Sink.collect steps (op₀, [])).1.slots ∧
        ∀ r ∈ records Sink.collect steps (op₀, []), ∀ e, r.answer = .error e →
          e.isAboutRetraction = false := by
  have hcollect : Sink.collect.FailsWith fun e => e.isAboutRetraction = false :=
    fun _ _ _ _ h => by cases h
  obtain ⟨op₀, hop₀, hsteps⟩ := @retracts_only_where_supported Empty _ [.integer]
    Registry.builtin sumAndNext (by decide +kernel) {} true Sink.collect []
  exact ⟨op₀, hop₀, fun steps =>
    ⟨(hsteps steps).1,
      (hsteps steps).2 (by decide +kernel) Registry.honorsSupport_builtin hcollect⟩⟩

/-- `NTILE(2)`, made to look at the next row. -/
def ntileOfNext : WindowSpec where
  groups :=
    [{ partition := [], sort := [⟨0, true⟩],
       calls := [{ Call.make "NTILE" [.literal (.integer 2)] with
         lookup := some ⟨.forward, .literal (.integer 1), .literal (.integer 0)⟩ }] }]

/-- **A lookup by a function that cannot take values back** is accepted, and fails when the last row
looks past the end of the partition. -/
theorem retraction_refused_behind_check :
    ∃ op₀ : WindowOperator Empty,
      ntileOfNext.check [.integer] (Registry.builtin : Registry Empty) = .ok () ∧
      ofSpec ntileOfNext [.integer] {} true Registry.builtin = .ok op₀ ∧
      (records Sink.collect [.push [.integer 1], .push [.integer 2], .finish] (op₀, [])).map
        Record.answer = [.ok (), .ok (), .error (.retractionNotSupported "NTILE" "retracting")] :=
  ⟨_, by decide +kernel, rfl, by decide +kernel⟩

end WindowOperator

end SqlWindow
