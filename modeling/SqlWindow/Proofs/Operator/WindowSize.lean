import SqlWindow.Proofs.Operator.Built

set_option autoImplicit false

/-! # The number of rows is told before results are read

The number of rows reaches a function by three choices that have to agree. The operator collects
partitions as soon as one call depends on their size. Every frame tells its functions the size when
it is prepared for a partition. And between two partitions frames add rows, take rows back and reset
functions, but tell them no other number.

Lookups are the exception. Their frames only reset functions when they are prepared, as LEAD and LAG
do not ask how many rows there are. So nothing is said here of what the function of a lookup was
told; if it is made one by hand, it may be one that asks.
-/

namespace SqlWindow

variable {σ ω : Type} {types : List DataType} {registry : Registry σ}

theorem WindowSpec.needsBuffering_of_needsWindowSize {spec : WindowSpec} {c : Call}
    (hc : c ∈ spec.groups.flatMap WindowGroup.calls) (h : c.needsWindowSize registry = true) :
    spec.needsBuffering registry = true := by
  obtain ⟨g, hg, hc⟩ := List.mem_flatMap.mp hc
  have hcalls : g.calls.any (·.needsWindowSize registry) = true :=
    List.any_eq_true.mpr ⟨c, hc, h⟩
  refine List.any_eq_true.mpr ⟨g, hg, ?_⟩
  rw [WindowGroup.needsBuffering, hcalls, Bool.true_or]

namespace WindowOperator

variable {spec : WindowSpec} {options : Options} {canSpill : Bool} {op₀ : WindowOperator σ}

/-- **Complete partitions** are collected where they are needed. -/
theorem isBuffered_of_ofSpec (h : ofSpec spec types options canSpill registry = .ok op₀) :
    op₀.isBuffered = spec.needsBuffering registry := by
  obtain ⟨-, ⟨hneeds, _, -, rfl⟩ | ⟨hneeds, _, -, rfl⟩⟩ := ofSpec_eq_ok_iff.mp h
  · exact hneeds.symm
  · exact hneeds.symm

/-- What is known of the function of a call when the operator reads its result for the row. The
function is driven from the one that is configured for the call. If the call depends on the number
of rows, or partitions are collected anyway, it was told last how many rows the operator holds, this
row among them; lookups apart. -/
def IsReadFor (registry : Registry σ) (op : WindowOperator σ) (row : Row) (c : Call)
    (a : Accumulator σ) : Prop :=
  ∃ a₀ told, c.function registry = .ok a₀ ∧ a₀.Driven True told a ∧
    (c.isLookup = false → c.needsWindowSize registry = true ∨ op.isBuffered = true →
      ∃ rows, op.Holds rows ∧ row ∈ rows ∧ told = some rows.length)

/-- **What is offered** ends with the results of functions, one for each call. -/
theorem IsAnswer.exists_results {op : WindowOperator σ} {out : Row}
    (hop₀ : ofSpec spec types options canSpill registry = .ok op₀)
    (h : IsAnswer (fun _ => True) op₀ op out) :
    ∃ row as, out = row ++ as.map Accumulator.result ∧
      List.Forall₂ (IsReadFor registry op row) (spec.groups.flatMap WindowGroup.calls) as := by
  have hcalls := map_calls_of_ofSpec hop₀
  cases h with
  | rowByRow h =>
    obtain ⟨row, v, hout, as, rfl, has⟩ := h
    rw [← slots_rowByRow] at has
    have hmem := (List.forall₂_and_left _ _).mpr
      ⟨fun c hc => hc, Answer.forall₂_of_map_eq hcalls has⟩
    refine ⟨row, as, hout, hmem.imp ?_⟩
    rintro c a ⟨hc, s₀, hs₀, told, -, hdriven⟩
    refine ⟨s₀.accumulator, told, Slot.function_of_ofCall hs₀, hdriven, fun _ hsize => ?_⟩
    -- partitions would have been collected
    have hneeds := hsize.elim (WindowSpec.needsBuffering_of_needsWindowSize hc) nofun
    rw [← isBuffered_of_ofSpec hop₀] at hneeds
    cases hneeds
  | byPartition hrows h =>
    obtain ⟨row, hrow, v, hout, as, rfl, has⟩ := h
    refine ⟨row, as, hout, (Answer.forall₂_of_map_eq hcalls has).imp ?_⟩
    rintro c a ⟨s₀, hs₀, told, htold, hdriven⟩
    refine ⟨s₀.accumulator, told, Slot.function_of_ofCall hs₀, hdriven, fun hlookup _ => ?_⟩
    have hfallback : s₀.fallback.isNone = true :=
      Option.isSome_eq_false_iff.mp ((Slot.isSome_fallback hs₀).trans hlookup)
    exact ⟨_, hrows, hrow, htold (Option.isNone_iff_eq_none.mp hfallback)⟩

/-- **Results are read behind the number of rows.** Every accepted specification has an operator.
Through any steps, also those that fail, all that it offers for a row ends with the results of
functions, one for each call; and where the call depends on the number of rows, its function was
told last how many rows the partition has. -/
theorem results_read_behind_window_size (hcheck : spec.check types registry = .ok ())
    (options : Options) (canSpill : Bool) (sink : Sink ω) (w : ω) :
    ∃ op₀, ofSpec spec types options canSpill registry = .ok op₀ ∧
      ∀ (steps : List Step) (step : Step),
        ∀ p ∈ (observe sink step (after sink steps (op₀, w))).1.offers,
          ∃ row as, p.1 = row ++ as.map Accumulator.result ∧
            List.Forall₂ (IsReadFor registry (after sink steps (op₀, w)).1 row)
              (spec.groups.flatMap WindowGroup.calls) as := by
  obtain ⟨op₀, hop₀⟩ := exists_ofSpec hcheck options canSpill
  refine ⟨op₀, hop₀, fun steps step p hp => ?_⟩
  -- values may be taken back from all functions, and all errors are expected
  have hF : ∀ e : Error, e.isAboutRetraction = false → True := fun _ _ => trivial
  have hsink : sink.FailsWith fun _ => True := fun _ _ _ _ _ => trivial
  have hdrivable (f : Frame σ) (hf : f ∈ op₀.frames) :
      f.IsDrivable (fun _ => True) fun _ => True :=
    ⟨fallback_of_ofSpec hop₀ hf, fun _ => CallTally.obeys_driven hF fun _ _ _ =>
      ⟨trivial, fun _ _ _ _ _ => trivial⟩⟩
  have hbefore := (isDriven_of_ofSpec hop₀ fun _ => True).after hF hsink hdrivable steps w
  have hobserved := hbefore.observe hF hsink hdrivable step (after sink steps (op₀, w)).2
  exact IsAnswer.exists_results hop₀ (hobserved.2.2 p hp)

/-- `CUME_DIST()` over the rows up to the current one, `NTILE(2)` over the current row alone, and
`LAG($0)`. -/
def shareAndBuckets : WindowSpec where
  groups :=
    [{ partition := [], sort := [⟨0, true⟩], calls := [Call.make "CUME_DIST" []] },
     { partition := [], sort := [⟨0, true⟩], unit := .rows, lower := .currentRow,
       upper := .currentRow, calls := [Call.make "NTILE" [.literal (.integer 2)]] },
     { partition := [], sort := [⟨0, true⟩], calls := [.onField "LAG" 0] }]

theorem results_read_behind_window_size_shareAndBuckets :
    ∃ op₀, ofSpec shareAndBuckets [.integer] {} true (Registry.builtin : Registry Empty) =
        .ok op₀ ∧
      ∀ (steps : List Step) (step : Step),
        ∀ p ∈ (observe Sink.collect step (after Sink.collect steps (op₀, []))).1.offers,
          ∃ row as, p.1 = row ++ as.map Accumulator.result ∧
            List.Forall₂ (IsReadFor Registry.builtin (after Sink.collect steps (op₀, [])).1 row)
              (shareAndBuckets.groups.flatMap WindowGroup.calls) as :=
  results_read_behind_window_size (by decide +kernel) {} true Sink.collect []

/-- `NTILE(2)` over the rows up to the current one, and `NTILE(2)` made to look at the current
row. -/
def bucketsTwice : WindowSpec where
  groups :=
    [{ partition := [], sort := [⟨0, true⟩],
       calls := [Call.make "NTILE" [.literal (.integer 2)]] },
     { partition := [], sort := [⟨0, true⟩],
       calls := [{ Call.make "NTILE" [.literal (.integer 2)] with
         lookup := some ⟨.forward, .literal (.integer 0), .literal (.integer 0)⟩ }] }]

/-- **A lookup by a function that depends on the number of rows** is accepted, and its results are
read without the number having been told. -/
theorem results_of_lookup_without_window_size :
    ∃ op₀ : WindowOperator Empty,
      bucketsTwice.check [.integer] (Registry.builtin : Registry Empty) = .ok () ∧
      ofSpec bucketsTwice [.integer] {} true Registry.builtin = .ok op₀ ∧
      (records Sink.collect [.push [.integer 1], .push [.integer 2], .push [.integer 3],
          .push [.integer 4], .finish] (op₀, [])).flatMap Record.offers =
        [([.integer 1, .integer 1, .integer 1], true), ([.integer 2, .integer 1, .integer 2], true),
          ([.integer 3, .integer 2, .integer 2], true),
          ([.integer 4, .integer 2, .integer 2], true)] :=
  ⟨_, by decide +kernel, rfl, by decide +kernel⟩

end WindowOperator

end SqlWindow
