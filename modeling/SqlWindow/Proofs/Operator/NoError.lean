import SqlWindow.Proofs.Operator.Execute
import SqlWindow.Proofs.Operator.Registry
import SqlWindow.Proofs.Operator.Steps

set_option autoImplicit false

/-! # What is accepted can be evaluated

A specification that passes its check has an operator, and this operator answers all rows that
conform to the types of the input fields without an error, in whatever order they come, however
often the input ends, and whether rows are pushed one by one or executed as a whole. So none of
the errors that frames, functions and stores know of is left to meet behind the check, as long as
spill files can be created and the sink takes what it is offered.
-/

namespace SqlWindow

variable {σ ω : Type}

/-! ## Requests -/

/-- What an operator is asked for. -/
inductive Request where
  /-- One step of an input. -/
  | step (step : Step)
  /-- A whole input and its output. -/
  | execute (input : List Row)
deriving DecidableEq, Repr

/-- The rows that come in with a request. -/
def Request.rows : Request → List Row
  | step s => s.row?.toList
  | execute input => input

/-- The sink takes every row. -/
def Sink.NeverFails (sink : Sink ω) : Prop := ∀ row w, ∃ w', sink.emit row w = .ok () w'

theorem Sink.NeverFails.receives {ω' : Type} {sink : Sink ω} {sink' : Sink ω'}
    (h : sink.NeverFails) (h' : sink'.NeverFails) : Receives (fun _ _ => True) sink sink' := by
  intro row w w' _
  obtain ⟨v, hv⟩ := h row w
  obtain ⟨v', hv'⟩ := h' row w'
  rw [hv, hv']
  exact .ok trivial

theorem Sink.collect_neverFails : Sink.collect.NeverFails := fun row out => ⟨row :: out, rfl⟩

namespace WindowOperator

/-- What a request does. -/
def serve (sink : Sink ω) : Request → Action (WindowOperator σ × ω) Unit
  | .step step => perform sink step
  | .execute input => discard (Action.onFirst (execute input))

/-! ## Steps that succeed -/

/-- From states with the property every step with a conforming row that fits succeeds, on some
output so far, and the property holds again. -/
def Proceeds (types : List DataType) (I : WindowOperator σ → Prop) : Prop :=
  ∀ step : Step, (∀ row ∈ step.row?, Row.Conforms row types ∧ SpillFile.Fits row) →
    ∀ op, I op → ∃ out s, perform Sink.collect step (op, out) = .ok () s ∧ I s.1

variable {types : List DataType} {spec : WindowSpec}

/-- An operator that works row by row has taken conforming rows since its input began. -/
theorem proceeds_rowByRow {fs₀ : List (Forward (CallTally σ))} (hfs : ∀ f ∈ fs₀, f.IsRowwise types)
    (hfields : ∀ index ∈ spec.partition, ∃ type, fieldType types index = .ok type) :
    Proceeds types fun op : WindowOperator σ => ∃ op₁ input out, op = rowByRow op₁ ∧
      (∀ row ∈ input, Row.Conforms row types) ∧
        RowByRow.HasTaken fs₀ spec.partition input (op₁, out) := by
  rintro step hstep _ ⟨op, input, out, rfl, hinput, htaken⟩
  cases step with
  | push row =>
    obtain ⟨s, hpush, hs⟩ := htaken.push hfs hfields hinput (hstep row rfl).1
    refine ⟨out, (rowByRow s.1, s.2), ?_, s.1, input ++ [row], s.2, rfl, ?_, hs⟩
    · exact Drives.of_ok (drives_within fun _ _ => rfl) hpush
    · exact List.forall_mem_append.mpr ⟨hinput, List.forall_mem_singleton.mpr (hstep row rfl).1⟩
  | finish =>
    have hfinish : RowByRow.finish (op, out) = .ok () ({ op with last := none }, out) := rfl
    have hidle := RowByRow.isIdle_of_finish htaken.built hfinish
    exact ⟨out, _, rfl, _, [], [], rfl, nofun, hidle.hasTaken⟩

/-- An operator that collects partitions has taken conforming rows since its input began. -/
theorem proceeds_byPartition {v : Frame σ → List Row → Nat → Row} {fs₀ : List (Frame σ)}
    {s₀ : RowStore} (ha : ByPartition.Accepts spec types v fs₀ s₀) :
    Proceeds types fun op : WindowOperator σ => ∃ op₁ input out, op = byPartition op₁ ∧
      (∀ row ∈ input, Row.Conforms row types) ∧
        ByPartition.HasTaken spec v fs₀ s₀ input (op₁, out) := by
  rintro step hstep _ ⟨op, input, out, rfl, hinput, htaken⟩
  cases step with
  | push row =>
    obtain ⟨s, hpush, hs⟩ := htaken.push ha hinput (hstep row rfl).1 (hstep row rfl).2
    refine ⟨out, (byPartition s.1, s.2), ?_, s.1, input ++ [row], s.2, rfl, ?_, hs⟩
    · exact Drives.of_ok (drives_within fun _ _ => rfl) hpush
    · exact List.forall_mem_append.mpr ⟨hinput, List.forall_mem_singleton.mpr (hstep row rfl).1⟩
  | finish =>
    obtain ⟨op', hfinish, hidle⟩ := htaken.finish ha hinput
    exact ⟨out, _, Drives.of_ok (drives_within fun _ _ => rfl) hfinish, op', [], [], rfl, nofun,
      hidle.hasTaken⟩

/-! ## Requests that succeed -/

section

variable {I : WindowOperator σ → Prop} {s₀ : RowStore} {op op' : WindowOperator σ}

/-- A step succeeds on every operator that mirrors one that proceeds, with every sink that never
fails. -/
theorem Proceeds.exists_perform (hI : Proceeds types I) (hs₀ : s₀.canSpill = true)
    {sink : Sink ω} (hsink : sink.NeverFails) {step : Step}
    (hstep : ∀ row ∈ step.row?, Row.Conforms row types ∧ SpillFile.Fits row) (hop' : I op')
    (hop : Mirrors s₀ s₀ op op') (w : ω) :
    ∃ s op₁, perform sink step (op, w) = .ok () s ∧ I op₁ ∧ Mirrors s₀ s₀ s.1 op₁ := by
  obtain ⟨out, s', hs', hI'⟩ := hI step hstep op' hop'
  have hagree := agree_perform (σ := σ) (hsink.receives Sink.collect_neverFails) hs₀ hs₀
    fun row hrow => (hstep row hrow).2
  obtain ⟨s, hs, hmirrors⟩ := hagree.exists_ok (s := (op, w)) (t := (op', out)) ⟨hop, trivial⟩ hs'
  exact ⟨s, s'.1, hs, hI', hmirrors.1⟩

/-- **A whole input** succeeds. -/
theorem Proceeds.exists_run (hI : Proceeds types I) (hs₀ : s₀.canSpill = true) {sink : Sink ω}
    (hsink : sink.NeverFails) {input : List Row}
    (hinput : ∀ row ∈ input, Row.Conforms row types ∧ SpillFile.Fits row) (hop' : I op')
    (hop : Mirrors s₀ s₀ op op') (w : ω) :
    ∃ s op₁, run sink input (op, w) = .ok () s ∧ I op₁ ∧ Mirrors s₀ s₀ s.1 op₁ := by
  induction input generalizing op op' w with
  | nil =>
    have hfinish : ∀ r ∈ Step.finish.row?, Row.Conforms r types ∧ SpillFile.Fits r := nofun
    exact hI.exists_perform hs₀ hsink hfinish hop' hop w
  | cons row input ih =>
    have hrow : ∀ r ∈ (Step.push row).row?, Row.Conforms r types ∧ SpillFile.Fits r := by
      rintro _ ⟨⟩
      exact hinput row List.mem_cons_self
    obtain ⟨⟨op₁, w₁⟩, op₂, hpush, hop₂, hop₁⟩ := hI.exists_perform hs₀ hsink hrow hop' hop w
    obtain ⟨s, op₃, hrun, h⟩ :=
      ih (fun r hr => hinput r (List.mem_cons_of_mem row hr)) hop₂ hop₁ w₁
    refine ⟨s, op₃, ?_, h⟩
    obtain ⟨⟨⟩, t, hrest, hend⟩ := Action.ok_of_bind_ok hrun
    have hfirst : (row :: input).forM (push sink) (op, w) = .ok ⟨⟩ t :=
      (Action.bind_of_ok hpush).trans hrest
    exact (Action.bind_of_ok hfirst).trans hend

theorem Proceeds.exists_serve (hI : Proceeds types I) (hs₀ : s₀.canSpill = true)
    {sink : Sink ω} (hsink : sink.NeverFails) {request : Request}
    (hrows : ∀ row ∈ request.rows, Row.Conforms row types ∧ SpillFile.Fits row) (hop' : I op')
    (hop : Mirrors s₀ s₀ op op') (w : ω) :
    ∃ s op₁, serve sink request (op, w) = .ok () s ∧ I op₁ ∧ Mirrors s₀ s₀ s.1 op₁ := by
  cases request with
  | step step =>
    refine hI.exists_perform hs₀ hsink (fun row hrow => hrows row ?_) hop' hop w
    exact Option.mem_toList.mpr hrow
  | execute input =>
    obtain ⟨s, op₁, hrun, hop₁, hmirrors⟩ :=
      hI.exists_run hs₀ Sink.collect_neverFails hrows hop' hop []
    have hexecute : Action.onFirst (execute input) (op, w) = .ok s.2.reverse (s.1, w) :=
      Action.onFirst_of_ok (execute_of_ok hrun)
    exact ⟨(s.1, w), op₁, Action.bind_of_ok hexecute, hop₁, hmirrors⟩

/-- **Any requests** succeed one after the other. -/
theorem Proceeds.exists_forM_serve (hI : Proceeds types I) (hs₀ : s₀.canSpill = true)
    {sink : Sink ω} (hsink : sink.NeverFails) {requests : List Request}
    (hrows : ∀ request ∈ requests, ∀ row ∈ request.rows,
      Row.Conforms row types ∧ SpillFile.Fits row) (hop' : I op') (hop : Mirrors s₀ s₀ op op')
    (w : ω) : ∃ s, requests.forM (serve sink) (op, w) = .ok () s := by
  induction requests generalizing op op' w with
  | nil => exact ⟨(op, w), rfl⟩
  | cons request requests ih =>
    obtain ⟨⟨op₁, w₁⟩, op₂, hserve, hop₂, hop₁⟩ :=
      hI.exists_serve hs₀ hsink (hrows request List.mem_cons_self) hop' hop w
    obtain ⟨s, hs⟩ := ih (fun r hr => hrows r (List.mem_cons_of_mem request hr)) hop₂ hop₁ w₁
    exact ⟨s, (Action.bind_of_ok hserve).trans hs⟩

end

/-! ## Accepted specifications -/

/-- The operator of an accepted specification, and what it proceeds with. -/
theorem exists_proceeds (hcheck : spec.check types (Registry.builtin : Registry σ) = .ok ())
    (hmade : ∀ g ∈ spec.groups, ∀ c ∈ g.calls, c.IsMade) (options : Options) :
    ∃ (op : WindowOperator σ) (I : WindowOperator σ → Prop),
      ofSpec spec types options true Registry.builtin = .ok op ∧ Proceeds types I ∧ I op := by
  have hfields := WindowSpec.exists_fieldType_of_check hcheck
  cases hneeds : spec.needsBuffering (Registry.builtin : Registry σ) with
  | false =>
    obtain ⟨fs₀, hfs, -, hofSpec⟩ := exists_ofSpec_rowByRow hcheck hneeds options
    have hnew : fs₀.map Forward.renew = fs₀ := map_eq_self fun f hf => (hfs f hf).renew_eq
    have hidle : RowByRow.IsIdle fs₀ spec.partition
        { frames := fs₀, partition := spec.partition } := ⟨⟨hnew, rfl⟩, rfl⟩
    exact ⟨_, _, hofSpec, proceeds_rowByRow hfs hfields, _, [], [], rfl, nofun, hidle.hasTaken⟩
  | true =>
    obtain ⟨frames, v, hready, hframes, ha, hofSpec⟩ :=
      exists_ofSpec_byPartition hcheck hneeds hmade options
    have hidle := ByPartition.isIdle_new (fun f hf => (hready f hf).renew_eq) spec.partition options
      true
    exact ⟨_, _, hofSpec, proceeds_byPartition ha, _, [], [], rfl, nofun, hidle.hasTaken⟩

/-- **What is accepted can be evaluated.** Over built-in functions and for calls made from names
and arguments, a specification has an operator when it is accepted, and only then. Where spill
files can be created, this operator answers any requests over conforming rows that fit into
records, one after the other and to any sink that takes every row, without an error. -/
theorem exists_operator_without_errors {registry : Registry σ} (hregistry : registry.IsStandard)
    (hmade : ∀ g ∈ spec.groups, ∀ c ∈ g.calls, c.IsMade) (options : Options) :
    (∀ canSpill, (∃ op, ofSpec spec types options canSpill registry = .ok op) ↔
      spec.check types registry = .ok ()) ∧
    ∀ op, ofSpec spec types options true registry = .ok op →
      ∀ sink : Sink ω, sink.NeverFails → ∀ requests : List Request,
        (∀ request ∈ requests, ∀ row ∈ request.rows,
          Row.Conforms row types ∧ SpillFile.Fits row) →
        ∀ w, ∃ s, requests.forM (serve sink) (op, w) = .ok () s := by
  have hexists (hcheck : spec.check types registry = .ok ()) :
      ∃ (op : WindowOperator σ) (I : WindowOperator σ → Prop),
        ofSpec spec types options true registry = .ok op ∧ Proceeds types I ∧ I op := by
    have halike := WindowSpec.findsAlike_builtin hregistry hcheck
    rw [halike.check types] at hcheck
    rw [halike.ofSpec types options true]
    exact exists_proceeds hcheck hmade options
  constructor
  · intro canSpill
    constructor
    · rintro ⟨op, hop⟩
      exact (ofSpec_eq_ok_iff.mp hop).1
    · intro hcheck
      obtain ⟨op, -, hop, -⟩ := hexists hcheck
      exact exists_ofSpec_of_ofSpec hop options canSpill
  · intro op hop sink hsink requests hrows w
    obtain ⟨op', I, hop', hI, hstart⟩ := hexists (ofSpec_eq_ok_iff.mp hop).1
    obtain rfl : op' = op := Except.ok.inj (hop'.symm.trans hop)
    exact hI.exists_forM_serve rfl hsink hrows hstart (mirrors_of_ofSpec hop hop) w

/-- Three rows of which the last is out of order, an end of the input behind the second, and an
execution while the third row is held. -/
theorem requests_of_runningAndNext :
    (∃ op, ofSpec runningAndNext [.integer, .integer] { memory := 0, pageRows := 1 } false
      (Registry.builtin : Registry Empty) = .ok op) ∧
    ∃ op s, ofSpec runningAndNext [.integer, .integer] { memory := 0, pageRows := 1 } true
        (Registry.builtin : Registry Empty) = .ok op ∧
      [Request.step (.push [.integer 2, .integer 5]), .step (.push [.integer 2, .unknown]),
        .step .finish, .step (.push [.integer 1, .integer 3]),
        .execute [[.integer 1, .integer 7], [.integer 1, .integer 6]]].forM (serve Sink.collect)
          (op, []) = .ok () s := by
  have hmade : ∀ g ∈ runningAndNext.groups, ∀ c ∈ g.calls, c.IsMade := by
    simp only [runningAndNext, List.forall_mem_cons, List.not_mem_nil, false_imp_iff,
      implies_true, and_true]
    exact ⟨⟨⟨_, _, rfl⟩, ⟨_, _, rfl⟩⟩, ⟨_, _, rfl⟩⟩
  obtain ⟨hexists, hserve⟩ := @exists_operator_without_errors Empty (List Row)
    [.integer, .integer] runningAndNext _ Registry.isStandard_builtin hmade
    { memory := 0, pageRows := 1 }
  have hcheck : runningAndNext.check [.integer, .integer] (Registry.builtin : Registry Empty) =
      .ok () := rfl
  obtain ⟨op, hop⟩ := (hexists true).mpr hcheck
  refine ⟨(hexists false).mpr hcheck, op, ?_⟩
  have hcollect := hserve op hop Sink.collect Sink.collect_neverFails
  exact (hcollect _ (by decide) []).imp fun _ => .intro hop

end WindowOperator

end SqlWindow
