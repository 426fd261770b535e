import SqlWindow.Operator.RowByRow
import SqlWindow.Proofs.Operator.Output

set_option autoImplicit false

/-! # Evaluation row by row

A frame of the current row alone, whose functions do not depend on the number of rows, has values
that are a function of the row: `CallTally.rowValues`. So it makes no difference that the operator
does not know the length of a partition, and its output is the input with these values behind
each row.
-/

namespace SqlWindow

variable {σ ω : Type} {types : List DataType}

/-! ## Frames of the current row -/

namespace CallTally

variable {t fresh : CallTally σ} {row : Row}

/-- No function depends on the number of rows in the window. -/
def IsInsensitive (t : CallTally σ) : Prop :=
  ∀ s ∈ t.slots, s.accumulator.isSizeSensitive = false

/-- The values of a tally that holds one row. -/
def rowValues (fresh : CallTally σ) (row : Row) : Row :=
  Tally.values ((Tally.add row).outcome (Tally.clear fresh)).2

theorem IsInsensitive.setWindowSize (h : fresh.IsInsensitive) (hfresh : fresh.IsBuiltin)
    (ht : t.renew = fresh) (size : Nat) : Tally.setWindowSize size t = t := by
  refine congrArg CallTally.mk (map_eq_self fun s hs => ?_)
  have hbuiltin : s.accumulator.IsBuiltin := isBuiltin_of_renew_eq hfresh ht s hs
  have hsize : s.accumulator.isSizeSensitive = false := by
    rw [← Accumulator.isSizeSensitive_renew hbuiltin]
    exact h s.renew (ht ▸ List.mem_map_of_mem hs)
  show Slot.mk _ _ _ = s
  rw [Accumulator.setWindowSize_of_not_isSizeSensitive hbuiltin hsize]

/-- **The values of one row** do not depend on what the tally has seen. -/
theorem IsInsensitive.exists_add (h : fresh.IsInsensitive) (hframed : fresh.IsFramed types)
    (ht : t.renew = fresh) (hrow : Row.Conforms row types) :
    ∃ u, Tally.add row (Tally.clear t) = .ok () u ∧ Tally.values u = fresh.rowValues row ∧
      u.renew = fresh := by
  have hclear {u : CallTally σ} (hu : u.renew = fresh) :
      Tally.setWindowSize 0 (Tally.clear u) = Tally.clear u :=
    h.setWindowSize hframed.isBuiltin
      ((renew_clear (isBuiltin_of_renew_eq hframed.isBuiltin hu)).trans hu) 0
  -- Cleared, the tally is the one of any other row: what it has seen is gone.
  have halike : Tally.clear t = Tally.clear fresh := by
    have hprepared := hframed.prepared_eq ht 0
    rwa [hclear ht, hclear hframed.renew_eq] at hprepared
  have hholds := holds_prepared hframed.fits hframed.renew_eq 0
  rw [hclear hframed.renew_eq] at hholds
  obtain ⟨u, hadd, hu⟩ := hholds.add hframed.isBuiltin hrow
  refine ⟨u, halike ▸ hadd, ?_, hu.renew_eq⟩
  rw [rowValues, Action.outcome_of_ok hadd]

/-- There is a value for each call. -/
theorem IsInsensitive.length_rowValues (h : fresh.IsInsensitive) (hframed : fresh.IsFramed types)
    (hrow : Row.Conforms row types) : (fresh.rowValues row).length = fresh.slots.length := by
  obtain ⟨u, -, hvalues, hu⟩ := h.exists_add hframed hframed.renew_eq hrow
  rw [← hvalues, ← hu]
  show (u.slots.map fun s => s.accumulator.result).length = (u.slots.map Slot.renew).length
  rw [List.length_map, List.length_map]

end CallTally

namespace Forward

variable {f f₀ : Forward (CallTally σ)} {row : Row}

/-- The frame as it was built. -/
def renew (f : Forward (CallTally σ)) : Forward (CallTally σ) := { f with tally := f.tally.renew }

theorem renew_prepare (h : f.renew.tally.IsBuiltin) (length : Nat) :
    (f.prepare length).renew = f.renew := by
  have hkeeps := CallTally.tallyKeeps_renew h
  exact congrArg (fun t => Forward.mk t f.currentRowOnly)
    (hkeeps.setWindowSize length _ (hkeeps.clear _ rfl))

/-- A frame of the current row alone, with functions that do not depend on the number of rows. -/
structure IsRowwise (types : List DataType) (f : Forward (CallTally σ)) : Prop where
  isCurrentRow : f.currentRowOnly = true
  isFramed : f.tally.IsFramed types
  isInsensitive : f.tally.IsInsensitive

theorem IsRowwise.renew_eq (h : f.IsRowwise types) : f.renew = f :=
  congrArg (fun t => Forward.mk t f.currentRowOnly) h.isFramed.renew_eq

/-- One row, which is all that the frame looks at. -/
theorem IsRowwise.exists_process (h : f₀.IsRowwise types) (hf : f.renew = f₀)
    (hrow : Row.Conforms row types) :
    ∃ g, process row f = .ok (f₀.tally.rowValues row) g ∧ g.renew = f₀ := by
  have hcurrent : f.currentRowOnly = true := (congrArg currentRowOnly hf).trans h.isCurrentRow
  have htally : f.tally.renew = f₀.tally := congrArg tally hf
  obtain ⟨t, hadd, hvalues, ht⟩ := h.isInsensitive.exists_add h.isFramed htally hrow
  refine ⟨{ f with tally := t }, ?_, ?_⟩
  · rw [← hvalues]
    exact process_eq (by rwa [if_pos hcurrent])
  · rw [← hf]
    show Forward.mk t.renew _ = Forward.mk f.tally.renew _
    rw [ht, htally]

/-- The frame, asked as part of a group, has the same values. -/
theorem IsRowwise.evaluates (h : f₀.IsRowwise types) {rows : List Row}
    (hrows : ∀ row ∈ rows, Row.Conforms row types) :
    (Frame.forward f₀).Evaluates rows fun i => f₀.tally.rowValues (rows.getD i []) := by
  have hprepare (f : Frame σ) (hf : f.renew = .forward f₀) :
      Reads rows Frame.prepare f () (.forward (f₀.prepare rows.length)) := by
    obtain ⟨g, rfl, rfl⟩ : ∃ g : Forward (CallTally σ), f = .forward g ∧ g.renew = f₀ := by
      cases f <;> cases hf
      exact ⟨_, rfl, rfl⟩
    have htally : g.tally.renew.renew = g.tally.renew := h.isFramed.renew_eq
    intro s hs
    refine ⟨s, ?_, hs, .refl s⟩
    show EStateM.Result.ok () (Frame.forward (g.prepare s.length), s) = _
    rw [prepare, prepare, hs.length_eq, h.isFramed.prepared_eq rfl]
    rfl
  have hprepared : (f₀.prepare rows.length).renew = f₀ := by
    rw [renew_prepare (by rw [h.renew_eq]; exact h.isFramed.isBuiltin), h.renew_eq]
  have hstep (i : Nat) (f : Frame σ) (row : Row)
      (hf : ∃ g : Forward (CallTally σ), f = .forward g ∧ g.renew = f₀)
      (hrow : rows[i]? = some row) :
      ∃ v f', Reads rows (Frame.process i row) f v f' ∧
        (∃ g : Forward (CallTally σ), f' = .forward g ∧ g.renew = f₀) ∧
        v = f₀.tally.rowValues (rows.getD i []) := by
    obtain ⟨g, rfl, hg⟩ := hf
    obtain ⟨g', hprocess, hg'⟩ := h.exists_process hg (hrows row (List.mem_of_getElem? hrow))
    refine ⟨_, .forward g', .get fun s _ => Frame.reads_within (.onFirst hprocess),
      ⟨g', rfl, hg'⟩, ?_⟩
    rw [List.getD_eq_getElem?_getD, hrow]
    rfl
  obtain ⟨v, ⟨f₁, hread, hanswers⟩, hv⟩ := Frame.exists_evaluates _ _ _ hprepare
    ⟨_, rfl, hprepared⟩ hstep
  exact ⟨f₁, hread, hanswers.congr fun i _ hi => hv i hi⟩

end Forward

/-! ## The operator -/

namespace RowByRow

variable {op : RowByRow σ} {fs₀ : List (Forward (CallTally σ))} {fields : List Nat} {sink : Sink ω}

/-- The operator has the frames that were built as `fs₀`. -/
structure IsBuilt (fs₀ : List (Forward (CallTally σ))) (fields : List Nat) (op : RowByRow σ) :
    Prop where
  frames : op.frames.map Forward.renew = fs₀
  partition : op.partition = fields

/-- An operator between two inputs. -/
structure IsIdle (fs₀ : List (Forward (CallTally σ))) (fields : List Nat) (op : RowByRow σ) : Prop
    extends op.IsBuilt fs₀ fields where
  last : op.last = none

theorem IsBuilt.prepare (h : op.IsBuilt fs₀ fields) (hfs : ∀ f ∈ fs₀, f.tally.IsBuiltin) :
    op.prepare.IsBuilt fs₀ fields where
  frames := by
    rw [← h.frames]
    show (op.frames.map _).map _ = _
    rw [List.map_map]
    refine List.map_congr_left fun f hf => Forward.renew_prepare (hfs _ ?_) 0
    rw [← h.frames]
    exact List.mem_map_of_mem hf
  partition := h.partition

/-- The operator at the row, prepared anew where the row starts a partition. -/
def atRow (starts : Bool) (op : RowByRow σ) : RowByRow σ := if starts then op.prepare else op

theorem IsBuilt.atRow (h : op.IsBuilt fs₀ fields) (hfs : ∀ f ∈ fs₀, f.tally.IsBuiltin)
    (starts : Bool) : (op.atRow starts).IsBuilt fs₀ fields := by
  cases starts with
  | true => exact h.prepare hfs
  | false => exact h

/-- Answers a row of the partition that is open. -/
def answerRow (sink : Sink ω) (row : Row) : Action (RowByRow σ × ω) Unit := do
  let values ← Action.onFirst (RowByRow.values row)
  modify fun (op, out) => ({ op with last := some row }, out)
  Action.onSecond (sink.emit (row ++ values.flatten))

theorem push_eq {row : Row} {starts : Bool} (h : op.startsPartition row = .ok starts) (out : ω) :
    push sink row (op, out) = answerRow sink row (op.atRow starts, out) := by
  unfold push
  rw [Action.get_bind, h]
  cases starts <;> rfl

/-- What answering a row keeps of each frame, it keeps of all frames. -/
theorem preserves_values_of {G : Forward (CallTally σ) → Forward (CallTally σ) → Prop} {row : Row}
    (hprocess : ∀ f₀ ∈ fs₀, Action.Preserves (G f₀) (Forward.process row)) :
    Action.Preserves (fun op : RowByRow σ => List.Forall₂ G fs₀ op.frames ∧ op.partition = fields)
      (values row) := by
  have heach : Action.Preserves (fun s : List (Forward (CallTally σ)) × Unit =>
      List.Forall₂ G fs₀ s.1 ∧ True) (Action.onEach (Action.onFirst (Forward.process row))) :=
    .onEach (T := fun _ => True) fun f₀ hf₀ => .onFirst (Q := fun _ => True) (hprocess f₀ hf₀)
  exact heach.onPart (fun op h => ⟨h.1, trivial⟩) fun op s h hs => ⟨hs.1, h.2⟩

theorem isBuilt_iff : op.IsBuilt fs₀ fields ↔
    List.Forall₂ (fun f₀ f => f.renew = f₀) fs₀ op.frames ∧ op.partition = fields := by
  rw [Action.Preserves.forall₂_iff_map_eq]
  exact ⟨fun h => ⟨h.frames, h.partition⟩, fun h => ⟨h.1, h.2⟩⟩

theorem preserves_values (hfs : ∀ f ∈ fs₀, f.tally.IsBuiltin) (row : Row) :
    Action.Preserves (IsBuilt fs₀ fields) (values row) := by
  have hprocess (f₀ : Forward (CallTally σ)) (hf₀ : f₀ ∈ fs₀) :
      Action.Preserves (fun f : Forward (CallTally σ) => f.renew = f₀) (Forward.process row) := by
    have hkept := Forward.preserves_process (CallTally.tallyKeeps_renew (hfs f₀ hf₀)).toKeepsRows
      f₀.currentRowOnly row
    rintro f rfl
    obtain ⟨htally, honly⟩ := hkept f ⟨rfl, rfl⟩
    unfold Forward.renew
    rw [htally, honly]
    rfl
  have hvalues : Action.Preserves (fun op : RowByRow σ =>
      List.Forall₂ (fun f₀ f => f.renew = f₀) fs₀ op.frames ∧ op.partition = fields) (values row) :=
    preserves_values_of hprocess
  intro op h
  exact isBuilt_iff.mpr (hvalues op (isBuilt_iff.mp h))

theorem preserves_answerRow {P : RowByRow σ → Prop} {row : Row}
    (hvalues : Action.Preserves P (values row))
    (hlast : ∀ op : RowByRow σ, P op → P { op with last := some row }) (sink : Sink ω) :
    Action.Preserves (fun s : RowByRow σ × ω => P s.1) (answerRow sink row) :=
  .bind (.fst_onFirst hvalues) fun _ =>
    .bind (.modify fun s hs => hlast s.1 hs) fun _ => .fst_onSecond _

/-- What a push that succeeds leaves behind, whatever rows there have been. -/
theorem isBuilt_of_push (hfs : ∀ f ∈ fs₀, f.tally.IsBuiltin) (hop : op.IsBuilt fs₀ fields)
    {row : Row} {out out' : ω} {op' : RowByRow σ}
    (h : push sink row (op, out) = .ok () (op', out')) : op'.IsBuilt fs₀ fields := by
  have hpreserves : Action.Preserves (fun s : RowByRow σ × ω => s.1.IsBuilt fs₀ fields)
      (answerRow sink row) :=
    preserves_answerRow (preserves_values hfs row) (fun _ h => ⟨h.frames, h.partition⟩) sink
  cases hstarts : op.startsPartition row with
  | error e =>
    unfold push at h
    rw [Action.get_bind, hstarts] at h
    cases h
  | ok starts =>
    rw [push_eq hstarts] at h
    exact hpreserves.of_ok (s := (op.atRow starts, out)) (hop.atRow hfs starts) h

theorem isIdle_of_finish (hop : op.IsBuilt fs₀ fields) {out out' : ω} {op' : RowByRow σ}
    (h : finish (op, out) = .ok () (op', out')) : op'.IsIdle fs₀ fields := by
  cases h
  exact ⟨⟨hop.frames, hop.partition⟩, rfl⟩

/-! ## Taking an input -/

/-- A row, and behind it its values. -/
def outputRow (fs₀ : List (Forward (CallTally σ))) (row : Row) : Row :=
  row ++ (fs₀.map fun f => f.tally.rowValues row).flatten

/-- The operator has taken these rows in, and has answered all of them. -/
structure HasTaken (fs₀ : List (Forward (CallTally σ))) (fields : List Nat) (input : List Row)
    (s : RowByRow σ × List Row) : Prop where
  built : s.1.IsBuilt fs₀ fields
  last : s.1.last = input.getLast?
  out : s.2 = (input.map (outputRow fs₀)).reverse

variable {input : List Row} {row : Row}

theorem IsIdle.hasTaken (h : op.IsIdle fs₀ fields) : HasTaken fs₀ fields [] (op, []) where
  built := h.toIsBuilt
  last := h.last
  out := rfl

theorem exists_runEach (hfs : ∀ f ∈ fs₀, f.IsRowwise types) (hrow : Row.Conforms row types)
    {frames : List (Forward (CallTally σ))} (hframes : frames.map Forward.renew = fs₀) :
    ∃ frames', Action.onEach (Action.onFirst (Forward.process row)) (frames, ()) =
      .ok (fs₀.map fun f => f.tally.rowValues row) (frames', ()) := by
  induction frames generalizing fs₀ with
  | nil =>
    cases hframes
    exact ⟨[], rfl⟩
  | cons f frames ih =>
    subst hframes
    obtain ⟨g, hprocess, -⟩ := (hfs f.renew List.mem_cons_self).exists_process rfl hrow
    obtain ⟨gs, hrest⟩ := ih (fun f hf => hfs f (List.mem_cons_of_mem _ hf)) rfl
    simp only [Action.onEach] at hrest
    refine ⟨g :: gs, ?_⟩
    simp only [Action.onEach, Action.runEach, Action.onFirst, Action.onPart, hprocess]
    simp only [Action.onFirst] at hrest
    rw [hrest]
    rfl

theorem exists_startsPartition (h : op.IsBuilt fs₀ fields) (hlast : op.last = input.getLast?)
    (hfields : ∀ index ∈ fields, ∃ type, fieldType types index = .ok type)
    (hinput : ∀ row ∈ input, Row.Conforms row types) (hrow : Row.Conforms row types) :
    ∃ b, op.startsPartition row = .ok b := by
  unfold startsPartition
  rw [hlast, h.partition]
  cases hlastRow : input.getLast? with
  | none => exact ⟨true, rfl⟩
  | some last =>
    obtain ⟨b, hb⟩ := (hinput last (List.mem_of_getLast? hlastRow)).samePartition hrow hfields
    exact ⟨!b, Answer.bind_of_ok hb⟩

/-- **One more row.** -/
theorem HasTaken.push (hfs : ∀ f ∈ fs₀, f.IsRowwise types)
    (hfields : ∀ index ∈ fields, ∃ type, fieldType types index = .ok type)
    {s : RowByRow σ × List Row} (h : HasTaken fs₀ fields input s)
    (hinput : ∀ row ∈ input, Row.Conforms row types) (hrow : Row.Conforms row types) :
    ∃ s', RowByRow.push Sink.collect row s = .ok () s' ∧
      HasTaken fs₀ fields (input ++ [row]) s' := by
  obtain ⟨op, out⟩ := s
  have hbuiltin : ∀ f ∈ fs₀, f.tally.IsBuiltin := fun f hf => (hfs f hf).isFramed.isBuiltin
  obtain ⟨starts, hstarts⟩ := exists_startsPartition h.built h.last hfields hinput hrow
  obtain ⟨frames, hframes⟩ := exists_runEach hfs hrow (h.built.atRow hbuiltin starts).frames
  have hvalues : Action.onFirst (RowByRow.values row) (op.atRow starts, out) =
      .ok (fs₀.map fun f => f.tally.rowValues row) ({ op.atRow starts with frames }, out) := by
    simp only [RowByRow.values, Action.onFirst, Action.onPart] at hframes ⊢
    rw [hframes]
  have hpush : RowByRow.push Sink.collect row (op, out) = .ok ()
      ({ op.atRow starts with frames, last := some row }, outputRow fs₀ row :: out) := by
    rw [push_eq hstarts, answerRow, Action.bind_of_ok hvalues]
    rfl
  have hout : out = (input.map (outputRow fs₀)).reverse := h.out
  refine ⟨_, hpush, isBuilt_of_push hbuiltin h.built hpush, ?_, ?_⟩
  · rw [List.getLast?_concat]
  · rw [List.map_append, List.reverse_append, ← hout]
    rfl

/-- **A whole input.** -/
theorem HasTaken.forM (hfs : ∀ f ∈ fs₀, f.IsRowwise types)
    (hfields : ∀ index ∈ fields, ∃ type, fieldType types index = .ok type)
    {s : RowByRow σ × List Row} (rest : List Row) (h : HasTaken fs₀ fields input s)
    (hinput : ∀ row ∈ input ++ rest, Row.Conforms row types) :
    ∃ s', rest.forM (RowByRow.push Sink.collect) s = .ok () s' ∧
      HasTaken fs₀ fields (input ++ rest) s' := by
  induction rest generalizing input s with
  | nil =>
    refine ⟨s, rfl, ?_⟩
    rwa [List.append_nil]
  | cons row rest ih =>
    obtain ⟨s₁, hpush, h₁⟩ := h.push hfs hfields
      (fun row hrow => hinput row (List.mem_append_left _ hrow))
      (hinput row (List.mem_append_right _ List.mem_cons_self))
    rw [List.append_cons] at hinput ⊢
    obtain ⟨s', hforM, h'⟩ := ih h₁ hinput
    exact ⟨s', (Action.bind_of_ok hpush).trans hforM, h'⟩

/-! ## The output of the specification -/

/-- The values of the frames, as those of the frames of groups. -/
def column (f : Frame σ) (run : List Row) (i : Nat) : Row :=
  match f with
  | .forward f => f.tally.rowValues (run.getD i [])
  | _ => []

/-- **Runs make no difference** to the output. -/
theorem flatMap_outputRows (spec : WindowSpec) (input : List Row) :
    (spec.runs input).flatMap (WindowSpec.outputRows column (fs₀.map Frame.forward)) =
      input.map (outputRow fs₀) := by
  have hrun (run : List Row) : WindowSpec.outputRows column (fs₀.map Frame.forward) run =
      run.map (outputRow fs₀) := by
    conv => rhs; rw [← List.zipIdx_map_fst 0 run]
    rw [List.map_map]
    refine List.map_congr_left fun p hp => ?_
    obtain ⟨row, i⟩ := p
    have hrow : run[i]? = some row := List.mk_mem_zipIdx_iff_getElem?.mp hp
    show row ++ _ = row ++ _
    rw [List.map_map]
    refine congrArg (fun vs => row ++ List.flatten vs) (List.map_congr_left fun f _ => ?_)
    show f.tally.rowValues (run.getD i []) = f.tally.rowValues row
    rw [List.getD_eq_getElem?_getD, hrow]
    rfl
  -- A row's values do not depend on its run, so the runs can be joined again.
  conv => rhs; rw [← List.flatten_splitBy spec.joins input]
  rw [List.map_flatten, List.flatMap_def]
  exact congrArg List.flatten (List.map_congr_left fun run _ => hrun run)

end RowByRow

end SqlWindow
