import SqlWindow.Operator.Basic
import SqlWindow.Proofs.Operator.ByPartition
import SqlWindow.Proofs.Operator.RowByRow

set_option autoImplicit false

/-! # Executions

An operator of an accepted specification gives, for every conforming input, what the
specification gives, run by run and group by group. Whether it works row by row or by partitions
does not show in the output, and neither do the inputs that it has worked on before.
-/

namespace SqlWindow

namespace WindowOperator

variable {σ ω : Type} {types : List DataType} {spec : WindowSpec}

/-! ## Operators of one kind -/

section

variable {φ α β : Type} {wrap : φ → WindowOperator σ}

/-- The action on operators does on one kind of them what the other action does. -/
def Drives (wrap : φ → WindowOperator σ) (x : Action (φ × ω) α)
    (y : Action (WindowOperator σ × ω) α) : Prop :=
  ∀ op out, y (wrap op, out) =
    match x (op, out) with
    | .ok a s => .ok a (wrap s.1, s.2)
    | .error e s => .error e (wrap s.1, s.2)

theorem Drives.bind {x : Action (φ × ω) α} {y : Action (WindowOperator σ × ω) α}
    {k : α → Action (φ × ω) β} {l : α → Action (WindowOperator σ × ω) β} (h : Drives wrap x y)
    (hk : ∀ a, Drives wrap (k a) (l a)) : Drives wrap (x >>= k) (y >>= l) := by
  intro op out
  have hstep := h op out
  cases hx : x (op, out) with
  | ok a s =>
    rw [hx] at hstep
    rw [Action.bind_of_ok hx, Action.bind_of_ok hstep]
    exact hk a s.1 s.2
  | error e s =>
    rw [hx] at hstep
    rw [Action.bind_of_error hx, Action.bind_of_error hstep]

theorem Drives.forM {γ : Type} {x : γ → Action (φ × ω) PUnit}
    {y : γ → Action (WindowOperator σ × ω) PUnit} (h : ∀ c, Drives wrap (x c) (y c))
    (cs : List γ) : Drives wrap (cs.forM x) (cs.forM y) := by
  induction cs with
  | nil => exact fun _ _ => rfl
  | cons c cs ih => exact (h c).bind fun _ => ih

theorem Drives.of_ok {x : Action (φ × ω) α} {y : Action (WindowOperator σ × ω) α}
    (h : Drives wrap x y) {op op' : φ} {out out' : ω} {a : α}
    (hx : x (op, out) = .ok a (op', out')) : y (wrap op, out) = .ok a (wrap op', out') := by
  rw [h, hx]

theorem Drives.outcome_eq {x : Action (φ × ω) α} {y : Action (WindowOperator σ × ω) α}
    (h : Drives wrap x y) (op : φ) (out : ω) :
    y.outcome (wrap op, out) = ((x.outcome (op, out)).1, wrap (x.outcome (op, out)).2.1,
      (x.outcome (op, out)).2.2) := by
  unfold Action.outcome
  rw [h]
  cases x (op, out) <;> rfl

theorem Drives.exists_of_ok {x : Action (φ × ω) α} {y : Action (WindowOperator σ × ω) α}
    (h : Drives wrap x y) {op : φ} {out : ω} {s : WindowOperator σ × ω} {a : α}
    (hy : y (wrap op, out) = .ok a s) :
    ∃ op' out', x (op, out) = .ok a (op', out') ∧ s = (wrap op', out') := by
  rw [h] at hy
  cases hx : x (op, out) with
  | ok b t =>
    rw [hx] at hy
    cases hy
    exact ⟨t.1, t.2, rfl, rfl⟩
  | error e t =>
    rw [hx] at hy
    cases hy

/-- What steps keep, an input keeps, and its end leads on. -/
theorem of_run {Built Idle : φ → Prop} {push : Row → Action (φ × ω) Unit}
    {finish : Action (φ × ω) Unit}
    (hpush : ∀ row s t, Built s.1 → push row s = .ok () t → Built t.1)
    (hfinish : ∀ s t, Built s.1 → finish s = .ok () t → Idle t.1) (input : List Row)
    {s t : φ × ω} (hs : Built s.1) (h : (input.forM push >>= fun _ => finish) s = .ok () t) :
    Idle t.1 := by
  obtain ⟨⟨⟩, u, hinput, hend⟩ := Action.ok_of_bind_ok h
  refine hfinish u t ?_ hend
  clear hend h
  induction input generalizing s with
  | nil =>
    cases hinput
    exact hs
  | cons row input ih =>
    obtain ⟨⟨⟩, s₁, hrow, hrest⟩ := Action.ok_of_bind_ok hinput
    exact ih (hpush row s s₁ hs hrow) hrest

end

theorem drives_within {φ α : Type} {wrap : φ → WindowOperator σ} {x : Action (φ × ω) α}
    {y : Action (WindowOperator σ × ω) α}
    (h : ∀ op out, y (wrap op, out) = within op wrap x (wrap op, out)) : Drives wrap x y := by
  intro op out
  rw [h, within, Action.onPart]
  cases x (op, out) <;> rfl

theorem drives_run_rowByRow (sink : Sink ω) (input : List Row) :
    Drives rowByRow (input.forM (RowByRow.push sink) >>= fun _ => RowByRow.finish)
      (run sink input : Action (WindowOperator σ × ω) Unit) :=
  .bind (.forM (fun _ => drives_within fun _ _ => rfl) input) fun _ => drives_within fun _ _ => rfl

theorem drives_push_byPartition (sink : Sink ω) (input : List Row) :
    Drives byPartition (input.forM (ByPartition.push sink))
      (input.forM (push sink) : Action (WindowOperator σ × ω) Unit) :=
  .forM (fun _ => drives_within fun _ _ => rfl) input

theorem drives_run_byPartition (sink : Sink ω) (input : List Row) :
    Drives byPartition (input.forM (ByPartition.push sink) >>= fun _ => ByPartition.finish sink)
      (run sink input : Action (WindowOperator σ × ω) Unit) :=
  .bind (drives_push_byPartition sink input) fun _ => drives_within fun _ _ => rfl

theorem execute_of_ok {input : List Row} {op op' : WindowOperator σ} {out : List Row}
    (h : run Sink.collect input (op, []) = .ok () (op', out)) :
    execute input op = .ok out.reverse op' := by
  rw [execute, h]

theorem exists_of_execute {input : List Row} {op op' : WindowOperator σ} {out : List Row}
    (h : execute input op = .ok out op') :
    ∃ sink, run Sink.collect input (op, []) = .ok () (op', sink) := by
  rw [execute] at h
  cases hrun : run Sink.collect input (op, []) with
  | ok u s =>
    rw [hrun] at h
    cases h
    exact ⟨s.2, rfl⟩
  | error e s =>
    rw [hrun] at h
    cases h

/-! ## Several executions -/

/-- Executions of some inputs one after the other; the outputs are left aside. -/
def executeAll (inputs : List (List Row)) : Action (WindowOperator σ) Unit :=
  inputs.forM fun input => discard (execute input)

/-- What one execution that succeeds keeps, several keep. -/
theorem of_executeAll {I : WindowOperator σ → Prop}
    (h : ∀ input op out op', I op → execute input op = .ok out op' → I op')
    {inputs : List (List Row)} {op op' : WindowOperator σ} (hop : I op)
    (hexecute : executeAll inputs op = .ok () op') : I op' := by
  induction inputs generalizing op with
  | nil =>
    cases hexecute
    exact hop
  | cons input inputs ih =>
    obtain ⟨⟨⟩, op₁, hfirst, hrest⟩ := Action.ok_of_bind_ok hexecute
    obtain ⟨out, op₂, hone, hdiscard⟩ := Action.ok_of_bind_ok hfirst
    cases hdiscard
    exact ih (h input op out op₁ hop hone) hrest

/-- An operator that is idle after any execution that succeeds. -/
theorem isIdle_of_execute_rowByRow {fs₀ : List (Forward (CallTally σ))} {fields : List Nat}
    (hfs : ∀ f ∈ fs₀, f.tally.IsBuiltin) {input : List Row} {op : RowByRow σ}
    (hop : op.IsIdle fs₀ fields) {out : List Row} {op' : WindowOperator σ}
    (h : execute input (rowByRow op) = .ok out op') :
    ∃ op₁, op' = rowByRow op₁ ∧ op₁.IsIdle fs₀ fields := by
  obtain ⟨sink, hrun⟩ := exists_of_execute h
  obtain ⟨op₁, out₁, hrun₁, heq⟩ := (drives_run_rowByRow Sink.collect input).exists_of_ok hrun
  cases heq
  refine ⟨op₁, rfl, of_run ?_ ?_ input (s := (op, [])) hop.toIsBuilt hrun₁⟩
  · exact fun row s t hs hpush => RowByRow.isBuilt_of_push hfs hs hpush
  · exact fun s t hs hfinish => RowByRow.isIdle_of_finish hs hfinish

theorem isIdle_of_execute_byPartition {fs₀ : List (Frame σ)} {fields : List Nat} {s₀ : RowStore}
    (hfs : ∀ f ∈ fs₀, f.tally.IsBuiltin) {input : List Row} {op : ByPartition σ}
    (hop : op.IsIdle fs₀ fields s₀) {out : List Row} {op' : WindowOperator σ}
    (h : execute input (byPartition op) = .ok out op') :
    ∃ op₁, op' = byPartition op₁ ∧ op₁.IsIdle fs₀ fields s₀ := by
  obtain ⟨sink, hrun⟩ := exists_of_execute h
  obtain ⟨op₁, out₁, hrun₁, heq⟩ := (drives_run_byPartition Sink.collect input).exists_of_ok hrun
  cases heq
  refine ⟨op₁, rfl, of_run ?_ ?_ input (s := (op, [])) hop.toIsBuilt hrun₁⟩
  · exact fun row s t hs hpush => ByPartition.isBuilt_of_push hfs hs hpush
  · exact fun s t hs hfinish => ByPartition.isIdle_of_flush hfs hs hfinish

/-- What was built to work row by row is idle behind any executions that succeed. -/
theorem isIdle_of_executeAll_rowByRow {fs₀ : List (Forward (CallTally σ))} {fields : List Nat}
    (hfs : ∀ f ∈ fs₀, f.tally.IsBuiltin) {inputs : List (List Row)} {op : RowByRow σ}
    (hop : op.IsIdle fs₀ fields) {op' : WindowOperator σ}
    (h : executeAll inputs (rowByRow op) = .ok () op') :
    ∃ op₁, op' = rowByRow op₁ ∧ op₁.IsIdle fs₀ fields := by
  refine of_executeAll (I := fun op => ∃ op₁, op = rowByRow op₁ ∧ op₁.IsIdle fs₀ fields) ?_
    ⟨op, rfl, hop⟩ h
  rintro input op out op' ⟨op₁, rfl, hop₁⟩ hexecute
  exact isIdle_of_execute_rowByRow hfs hop₁ hexecute

/-- What was built to collect partitions is idle behind any executions that succeed. -/
theorem isIdle_of_executeAll_byPartition {fs₀ : List (Frame σ)} {fields : List Nat}
    {s₀ : RowStore} (hfs : ∀ f ∈ fs₀, f.tally.IsBuiltin) {inputs : List (List Row)}
    {op : ByPartition σ} (hop : op.IsIdle fs₀ fields s₀) {op' : WindowOperator σ}
    (h : executeAll inputs (byPartition op) = .ok () op') :
    ∃ op₁, op' = byPartition op₁ ∧ op₁.IsIdle fs₀ fields s₀ := by
  refine of_executeAll (I := fun op => ∃ op₁, op = byPartition op₁ ∧ op₁.IsIdle fs₀ fields s₀) ?_
    ⟨op, rfl, hop⟩ h
  rintro input op out op' ⟨op₁, rfl, hop₁⟩ hexecute
  exact isIdle_of_execute_byPartition hfs hop₁ hexecute

end WindowOperator

/-! ## Groups of the current row -/

namespace WindowGroup

variable {σ : Type} {types : List DataType} {g : WindowGroup}

/-- The functions of calls that do not depend on the number of rows do not either. -/
theorem isInsensitive_of_ofCalls {calls : List Call} {t : CallTally σ}
    (ht : CallTally.ofCalls calls Registry.builtin = .ok t)
    (haccepted : ∀ c ∈ calls, ∃ a : Accumulator σ, c.Accepted types Registry.builtin a)
    (hsize : ∀ c ∈ calls, c.needsWindowSize (Registry.builtin : Registry σ) = false) :
    t.IsInsensitive := by
  intro s hs
  obtain ⟨c, hc, hcs⟩ := CallTally.exists_call_of_mem ht hs
  obtain ⟨a, ha⟩ := haccepted c hc
  obtain ⟨b, hcreate, hconfigure⟩ := Call.configure_of_function ha.function
  have hbuiltin : b.IsBuiltin :=
    (Accumulator.isNew_of_mem_builtins (Registry.mem_builtins_of_create hcreate).1).1
  have hneeds := hsize c hc
  unfold Call.needsWindowSize at hneeds
  rw [Registry.find?_of_create hcreate, Bool.or_eq_false_iff] at hneeds
  rw [ha.eq_slot hcs]
  exact (Accumulator.isSizeSensitive_of_configure hbuiltin hconfigure).trans hneeds.2

/-- **A group that needs no complete partitions** has a frame of the current row, whichever
operator it is built for. -/
theorem exists_rowwise {position : Nat}
    (hcheck : g.check position types (Registry.builtin : Registry σ) = .ok ())
    (hneeds : g.needsBuffering (Registry.builtin : Registry σ) = false) :
    ∃ f : Forward (CallTally σ), WindowOperator.forwardFrame Registry.builtin g = .ok f ∧
      f.IsRowwise types ∧ Frame.ofGroup g Registry.builtin = .ok [.forward f] := by
  unfold needsBuffering at hneeds
  rw [Bool.or_eq_false_iff, Bool.not_eq_false', Bool.and_eq_true, Bool.and_eq_true] at hneeds
  obtain ⟨hcalls, ⟨hmode, hlower⟩, hupper⟩ := hneeds
  replace hmode : g.mode = .row := eq_of_beq hmode
  have hl : g.lower = .currentRow := eq_of_beq hlower
  have hu : g.upper = .currentRow := eq_of_beq hupper
  obtain ⟨shape, hshape⟩ := (accepted_of_check hcheck).2.2 (by rw [hmode]; nofun)
  obtain ⟨fresh, htally, hframed, -⟩ := hshape.exists_tally
  have hinsensitive : fresh.IsInsensitive :=
    isInsensitive_of_ofCalls htally hshape.exists_accepted fun c hc => by
      simpa using List.any_eq_false.mp hcalls c hc
  have hofBounds := hshape.shape_eq
  rw [hl, hu, unit_eq_of_mode_eq_row hmode] at hofBounds
  refine ⟨Forward.ofBounds fresh g.lower g.upper, ?_, ⟨?_, hframed, hinsensitive⟩, ?_⟩
  · rw [WindowOperator.forwardFrame, Answer.bind_of_ok htally]
    rfl
  · show (g.lower == .currentRow && g.upper == .currentRow) = true
    rw [hlower, hupper]
    rfl
  · rw [Frame.ofGroup, hmode]
    simp only [Answer.bind_of_ok htally, Answer.bind_of_ok hshape.shape_eq]
    cases hofBounds
    rfl

end WindowGroup

/-! ## The output -/

namespace WindowOperator

variable {σ : Type} {types : List DataType} {spec : WindowSpec} {input : List Row}

/-- Where all frames are of the current row, the specification gives each row with its values. -/
theorem runsOutput_of_isRowwise {fs₀ : List (Forward (CallTally σ))}
    (hfs : ∀ f ∈ fs₀, f.IsRowwise types)
    (hframes : spec.groups.mapM (Frame.ofGroup · (Registry.builtin : Registry σ)) =
      .ok (fs₀.map fun f => [.forward f]))
    (hinput : ∀ row ∈ input, Row.Conforms row types) :
    spec.runsOutput (Registry.builtin : Registry σ) (spec.runs input) =
      .ok (input.map (RowByRow.outputRow fs₀)) := by
  have hflatten : (fs₀.map fun f => [Frame.forward f]).flatten = fs₀.map Frame.forward := by
    rw [← List.flatMap_def, List.map_eq_flatMap]
  rw [← RowByRow.flatMap_outputRows spec input, ← hflatten]
  refine WindowSpec.runsOutput_eq hframes ?_ fun run hrun f hf => ?_
  · rw [hflatten]
    intro f hf
    obtain ⟨f₀, hf₀, rfl⟩ := List.mem_map.mp hf
    exact congrArg Frame.forward (hfs f₀ hf₀).renew_eq
  · rw [hflatten] at hf
    obtain ⟨f₀, hf₀, rfl⟩ := List.mem_map.mp hf
    exact (hfs f₀ hf₀).evaluates fun row hrow => hinput row (WindowSpec.mem_of_mem_runs hrun hrow)

/-- An idle operator that works row by row gives each row with its values. -/
theorem exists_execute_eq_map {fs₀ : List (Forward (CallTally σ))} {op : RowByRow σ}
    (hfs : ∀ f ∈ fs₀, f.IsRowwise types)
    (hfields : ∀ index ∈ spec.partition, ∃ type, fieldType types index = .ok type)
    (hop : op.IsIdle fs₀ spec.partition) (hinput : ∀ row ∈ input, Row.Conforms row types) :
    ∃ op', execute input (rowByRow op) = .ok (input.map (RowByRow.outputRow fs₀)) op' := by
  obtain ⟨⟨op', sink⟩, hforM, htaken⟩ := hop.hasTaken.forM hfs hfields input hinput
  have hrun : (input.forM (RowByRow.push Sink.collect) >>= fun _ => RowByRow.finish) (op, []) =
      .ok () ({ op' with last := none }, sink) :=
    Action.bind_of_ok hforM
  have hsink : sink = (input.map (RowByRow.outputRow fs₀)).reverse := htaken.out
  have hexecute := execute_of_ok ((drives_run_rowByRow Sink.collect input).of_ok hrun)
  rw [hsink, List.reverse_reverse] at hexecute
  exact ⟨_, hexecute⟩

/-- An idle operator that works row by row gives what the specification gives. -/
theorem exists_execute_rowByRow {fs₀ : List (Forward (CallTally σ))} {op : RowByRow σ}
    (hfs : ∀ f ∈ fs₀, f.IsRowwise types)
    (hframes : spec.groups.mapM (Frame.ofGroup · (Registry.builtin : Registry σ)) =
      .ok (fs₀.map fun f => [.forward f]))
    (hfields : ∀ index ∈ spec.partition, ∃ type, fieldType types index = .ok type)
    (hop : op.IsIdle fs₀ spec.partition) (hinput : ∀ row ∈ input, Row.Conforms row types) :
    ∃ out op', execute input (rowByRow op) = .ok out op' ∧
      spec.runsOutput (Registry.builtin : Registry σ) (spec.runs input) = .ok out := by
  obtain ⟨op', hexecute⟩ := exists_execute_eq_map hfs hfields hop hinput
  exact ⟨_, op', hexecute, runsOutput_of_isRowwise hfs hframes hinput⟩

/-- What an idle operator that collects partitions gives, when it gives something, is what the
specification gives. Rows may be too large for a record here, and files refused. -/
theorem runsOutput_of_execute_byPartition {frames : List (List (Frame σ))} {s₀ s₁ : RowStore}
    {v : Frame σ → List Row → Nat → Row} {op : ByPartition σ}
    (hframes : spec.groups.mapM (Frame.ofGroup · (Registry.builtin : Registry σ)) = .ok frames)
    (hnew : ∀ f ∈ frames.flatten, f.renew = f)
    (ha : ByPartition.Accepts spec types v frames.flatten s₁)
    (hop : op.IsIdle frames.flatten spec.partition s₀)
    (hinput : ∀ row ∈ input, Row.Conforms row types) {out : List Row} {op' : WindowOperator σ}
    (h : execute input (byPartition op) = .ok out op') :
    spec.runsOutput (Registry.builtin : Registry σ) (spec.runs input) = .ok out := by
  obtain ⟨sink, hrun⟩ := exists_of_execute h
  obtain ⟨op₁, sink₁, hrun₁, heq⟩ := (drives_run_byPartition Sink.collect input).exists_of_ok hrun
  obtain ⟨⟨⟩, s, hforM, hfinish⟩ := Action.ok_of_bind_ok hrun₁
  have htaken := (hop.hasTaken (v := v)).of_forM ha hinput hforM
  obtain ⟨op₂, hfinish', -⟩ := htaken.finish ha hinput
  rw [hfinish'] at hfinish
  cases hfinish
  cases heq
  rw [execute_of_ok hrun] at h
  cases h
  rw [List.nil_append, List.reverse_reverse]
  exact WindowSpec.runsOutput_eq hframes hnew fun run hrun =>
    ha.evaluates run (ByPartition.rows_of_runs hinput hrun)

/-- An idle operator that collects partitions gives what the specification gives, and while it
takes input its sink has the output of all runs but the last. -/
theorem exists_execute_byPartition {frames : List (List (Frame σ))} {s₀ : RowStore}
    {v : Frame σ → List Row → Nat → Row} {op : ByPartition σ}
    (hframes : spec.groups.mapM (Frame.ofGroup · (Registry.builtin : Registry σ)) = .ok frames)
    (hnew : ∀ f ∈ frames.flatten, f.renew = f)
    (ha : ByPartition.Accepts spec types v frames.flatten s₀)
    (hop : op.IsIdle frames.flatten spec.partition s₀)
    (hinput : ∀ row ∈ input, Row.Conforms row types ∧ SpillFile.Fits row) :
    (∃ out op', execute input (byPartition op) = .ok out op' ∧
      spec.runsOutput (Registry.builtin : Registry σ) (spec.runs input) = .ok out) ∧
    ∃ op' closed,
      input.forM (push Sink.collect) (byPartition op, []) = .ok () (op', closed.reverse) ∧
      spec.runsOutput (Registry.builtin : Registry σ) (spec.runs input).dropLast = .ok closed := by
  have hconforms : ∀ row ∈ input, Row.Conforms row types := fun row hrow => (hinput row hrow).1
  -- The last run is still in the store when the input ends.
  obtain ⟨⟨op₁, sink⟩, hforM, htaken⟩ :=
    ByPartition.HasTaken.forM ha input (hop.hasTaken (v := v)) hinput
  obtain ⟨op', hfinish, -⟩ := htaken.finish ha hconforms
  have hsink : sink = ((spec.runs input).dropLast.flatMap _).reverse := htaken.out
  constructor
  · have hexecute := execute_of_ok ((drives_run_byPartition Sink.collect input).of_ok
      ((Action.bind_of_ok hforM).trans hfinish))
    exact ⟨_, _, hexecute, runsOutput_of_execute_byPartition hframes hnew ha hop hconforms hexecute⟩
  · refine ⟨byPartition op₁, _, ?_, WindowSpec.runsOutput_eq hframes hnew fun run hrun =>
      ha.evaluates run (ByPartition.rows_of_runs hconforms (List.dropLast_subset _ hrun))⟩
    rw [← hsink]
    exact (drives_push_byPartition Sink.collect input).of_ok hforM

/-- The operator, for an accepted specification without a group that needs complete partitions. -/
theorem exists_ofSpec_rowByRow (hcheck : spec.check types (Registry.builtin : Registry σ) = .ok ())
    (hneeds : spec.needsBuffering (Registry.builtin : Registry σ) = false) (options : Options) :
    ∃ fs₀ : List (Forward (CallTally σ)), (∀ f ∈ fs₀, f.IsRowwise types) ∧
      spec.groups.mapM (Frame.ofGroup · (Registry.builtin : Registry σ)) =
        .ok (fs₀.map fun f => [.forward f]) ∧
      ofSpec spec types options true Registry.builtin =
        .ok (rowByRow { frames := fs₀, partition := spec.partition }) := by
  have hrowwise : ∀ g ∈ spec.groups, ∃ f : Forward (CallTally σ),
      forwardFrame Registry.builtin g = .ok f ∧ f.IsRowwise types ∧
        Frame.ofGroup g Registry.builtin = .ok [.forward f] := by
    intro g hg
    obtain ⟨position, hgroup⟩ := (WindowSpec.accepted_of_check hcheck).2 g hg
    have hgroupNeeds := List.any_eq_false.mp hneeds g hg
    exact WindowGroup.exists_rowwise hgroup (by simpa using hgroupNeeds)
  obtain ⟨fs₀, hfs₀⟩ := Answer.exists_mapM_eq_ok fun g hg =>
    (hrowwise g hg).imp fun _ => And.left
  refine ⟨fs₀, fun f hf => ?_, ?_, ?_⟩
  · obtain ⟨g, hg, heq⟩ := Answer.exists_of_mem_mapM hfs₀ hf
    obtain ⟨f', hf', hready, -⟩ := hrowwise g hg
    rw [hf'] at heq
    exact Except.ok.inj heq ▸ hready
  · refine Answer.mapM_eq_ok_map hfs₀ fun g hg f hf _ => ?_
    obtain ⟨f', hf', -, hgroup⟩ := hrowwise g hg
    rw [hf'] at hf
    rw [hgroup, Except.ok.inj hf]
  · rw [ofSpec, hcheck]
    show (if spec.needsBuffering Registry.builtin then _ else _) = _
    rw [hneeds, if_neg nofun, Answer.bind_of_ok hfs₀]
    rfl

/-- The operator, for an accepted specification with a group that needs complete partitions. -/
theorem exists_ofSpec_of_needsBuffering
    (hcheck : spec.check types (Registry.builtin : Registry σ) = .ok ())
    (hneeds : spec.needsBuffering (Registry.builtin : Registry σ) = true)
    (hmade : ∀ g ∈ spec.groups, g.mode = .offset → ∀ c ∈ g.calls, c.IsMade) (options : Options) :
    ∃ (frames : List (List (Frame σ))) (v : Frame σ → List Row → Nat → Row),
      (∀ f ∈ frames.flatten, f.IsReady types) ∧
      spec.groups.mapM (Frame.ofGroup · (Registry.builtin : Registry σ)) = .ok frames ∧
      ByPartition.Accepts spec types v frames.flatten { options } ∧
      ofSpec spec types options true Registry.builtin = .ok (byPartition
        { frames := frames.flatten, partition := spec.partition, store := { options } }) := by
  obtain ⟨frames, hframes, hready⟩ := WindowSpec.exists_frames hcheck hmade
  obtain ⟨v, hv⟩ := Frame.exists_columns hready
  have hfields := WindowSpec.exists_fieldType_of_check hcheck
  refine ⟨frames, v, hready, hframes,
    ⟨fun f hf => (hready f hf).isBuiltin, hv, hfields, rfl⟩, ?_⟩
  rw [ofSpec, hcheck]
  show (if spec.needsBuffering Registry.builtin then _ else _) = _
  rw [hneeds, if_pos rfl, Answer.bind_of_ok hframes]
  rfl

/-- The operator, for an accepted specification of built-in calls. -/
theorem exists_ofSpec_byPartition
    (hcheck : spec.check types (Registry.builtin : Registry σ) = .ok ())
    (hneeds : spec.needsBuffering (Registry.builtin : Registry σ) = true)
    (hmade : ∀ g ∈ spec.groups, ∀ c ∈ g.calls, c.IsMade) (options : Options) :
    ∃ (frames : List (List (Frame σ))) (v : Frame σ → List Row → Nat → Row),
      (∀ f ∈ frames.flatten, f.IsReady types) ∧
      spec.groups.mapM (Frame.ofGroup · (Registry.builtin : Registry σ)) = .ok frames ∧
      ByPartition.Accepts spec types v frames.flatten { options } ∧
      ofSpec spec types options true Registry.builtin = .ok (byPartition
        { frames := frames.flatten, partition := spec.partition, store := { options } }) :=
  exists_ofSpec_of_needsBuffering hcheck hneeds (fun g hg _ => hmade g hg) options

/-- **Executions are runs of groups.** Every accepted specification of built-in calls has an
operator, whatever its options, as long as spill files can be created. After any executions that
succeed, it gives for every conforming input whose rows fit into records what the specification
gives: the input cut into runs, in each run every row in its place, followed by the values of
each group on this run alone.

When the operator collects partitions, then after every front part of the input the sink has the
output of all runs of this part but the last. -/
theorem execute_eq_runsOutput
    (hcheck : spec.check types (Registry.builtin : Registry σ) = .ok ())
    (hmade : ∀ g ∈ spec.groups, ∀ c ∈ g.calls, c.IsMade) (options : Options) :
    ∃ op₀ : WindowOperator σ, ofSpec spec types options true Registry.builtin = .ok op₀ ∧
      ∀ earlier op, executeAll earlier op₀ = .ok () op →
      ∀ input, (∀ row ∈ input, Row.Conforms row types ∧ SpillFile.Fits row) →
        (∃ out op', execute input op = .ok out op' ∧
          spec.runsOutput (Registry.builtin : Registry σ) (spec.runs input) = .ok out) ∧
        (op.isBuffered = true → ∀ front, front <+: input →
          ∃ op' closed, front.forM (push Sink.collect) (op, []) = .ok () (op', closed.reverse) ∧
            spec.runsOutput (Registry.builtin : Registry σ) (spec.runs front).dropLast =
              .ok closed) := by
  cases hneeds : spec.needsBuffering (Registry.builtin : Registry σ) with
  | false =>
    obtain ⟨fs₀, hfs, hframes, hofSpec⟩ := exists_ofSpec_rowByRow hcheck hneeds options
    have hfields := WindowSpec.exists_fieldType_of_check hcheck
    have hnew : fs₀.map Forward.renew = fs₀ := map_eq_self fun f hf => (hfs f hf).renew_eq
    refine ⟨_, hofSpec, fun earlier op hearlier input hinput => ?_⟩
    obtain ⟨op₁, rfl, hop₁⟩ := isIdle_of_executeAll_rowByRow
      (fun f hf => (hfs f hf).isFramed.isBuiltin) ⟨⟨hnew, rfl⟩, rfl⟩ hearlier
    exact ⟨exists_execute_rowByRow hfs hframes hfields hop₁ fun row hrow => (hinput row hrow).1,
      nofun⟩
  | true =>
    obtain ⟨frames, v, hready, hframes, ha, hofSpec⟩ :=
      exists_ofSpec_byPartition hcheck hneeds hmade options
    have hnew : ∀ f ∈ frames.flatten, f.renew = f := fun f hf => (hready f hf).renew_eq
    have hempty : RowStore.Holds { options } [] := RowStore.holds_of_spill_eq_none rfl rfl
    refine ⟨_, hofSpec, fun earlier op hearlier input hinput => ?_⟩
    obtain ⟨op₁, rfl, hop₁⟩ := isIdle_of_executeAll_byPartition ha.isBuiltin
      ⟨⟨map_eq_self hnew, rfl, ⟨[], hempty⟩, .refl _⟩, rfl, hempty⟩ hearlier
    refine ⟨(exists_execute_byPartition hframes hnew ha hop₁ hinput).1, fun _ front hfront => ?_⟩
    -- a front part of the input is an input that is not ended
    exact (exists_execute_byPartition hframes hnew ha hop₁ fun row hrow =>
      hinput row (hfront.subset hrow)).2

/-- `COUNT(*)` and `SUM($1)` over the rows up to the current one, partitioned by `$0`, next to
`LEAD($1)`; only the latter needs complete partitions. -/
def runningAndNext : WindowSpec where
  groups :=
    [{ partition := [0], sort := [⟨1, true⟩], unit := .rows, lower := .unboundedPreceding,
       upper := .currentRow, calls := [.make "COUNT" [], .make "SUM" [.field 1]] },
     { partition := [0], sort := [⟨1, true⟩], calls := [.make "LEAD" [.field 1]] }]

/-- A partition in a first execution, two partitions in a second. -/
theorem execute_runningAndNext :
    ∃ op₀ op₁ op₂ out₁ out₂,
      ofSpec runningAndNext [.integer, .integer] { memory := 0, pageRows := 1 } true
        (Registry.builtin : Registry Empty) = .ok op₀ ∧
      execute [[.integer 1, .integer 7]] op₀ = .ok out₁ op₁ ∧
      execute [[.integer 1, .integer 5], [.integer 1, .unknown], [.integer 2, .integer 3]] op₁ =
        .ok out₂ op₂ ∧
      runningAndNext.runsOutput (Registry.builtin : Registry Empty)
        [[[.integer 1, .integer 5], [.integer 1, .unknown]], [[.integer 2, .integer 3]]] =
          .ok out₂ ∧
      ∃ op' closed,
        [[Value.integer 1, .integer 5], [.integer 1, .unknown], [.integer 2, .integer 3]].forM
          (push Sink.collect) (op₀, []) = .ok () (op', closed.reverse) ∧
        runningAndNext.runsOutput (Registry.builtin : Registry Empty)
          [[[.integer 1, .integer 5], [.integer 1, .unknown]]] = .ok closed := by
  have hmade : ∀ g ∈ runningAndNext.groups, ∀ c ∈ g.calls, c.IsMade := by
    simp only [runningAndNext, List.forall_mem_cons, List.not_mem_nil, false_imp_iff,
      implies_true, and_true]
    exact ⟨⟨⟨_, _, rfl⟩, ⟨_, _, rfl⟩⟩, ⟨_, _, rfl⟩⟩
  obtain ⟨op₀, hop₀, h⟩ := @execute_eq_runsOutput Empty [.integer, .integer] runningAndNext rfl
    hmade { memory := 0, pageRows := 1 }
  have hbuffered : op₀.isBuffered = true := by
    cases hop₀
    rfl
  obtain ⟨⟨out₁, op₁, hfirst, -⟩, -⟩ := h [] op₀ rfl [[.integer 1, .integer 7]] (by decide)
  have hearlier : executeAll [[[.integer 1, .integer 7]]] op₀ = .ok () op₁ :=
    Action.bind_of_ok (Action.bind_of_ok hfirst)
  obtain ⟨⟨out₂, op₂, hsecond, hout⟩, -⟩ := h _ op₁ hearlier
    [[.integer 1, .integer 5], [.integer 1, .unknown], [.integer 2, .integer 3]] (by decide)
  have hclosed := (h [] op₀ rfl
    [[.integer 1, .integer 5], [.integer 1, .unknown], [.integer 2, .integer 3]] (by decide)).2
    hbuffered _ (List.prefix_refl _)
  exact ⟨op₀, op₁, op₂, out₁, out₂, hop₀, hfirst, hsecond, hout, hclosed⟩

end WindowOperator

end SqlWindow
