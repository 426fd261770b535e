import SqlWindow.Operator.ByPartition
import SqlWindow.Proofs.Operator.Output

set_option autoImplicit false

/-! # Evaluation by partitions

An operator that collects partitions keeps, whatever rows it is given and whether it fails on
them or not, the frames it was built with and a sound store. While it takes conforming input, its
store has the run that is still open, and its sink has the output of all runs before it.
-/

namespace SqlWindow

namespace ByPartition

variable {σ ω : Type} {types : List DataType} {op : ByPartition σ} {fs₀ : List (Frame σ)}
  {fields : List Nat} {s₀ : RowStore} {last : Option Row} {sink : Sink ω}

/-! ## What the operator keeps -/

/-- The operator has the frames that were built as `fs₀`, and a sound store set up as `s₀`. -/
structure IsBuilt (fs₀ : List (Frame σ)) (fields : List Nat) (s₀ : RowStore)
    (op : ByPartition σ) : Prop where
  frames : op.frames.map Frame.renew = fs₀
  partition : op.partition = fields
  store : s₀.Sound op.store

/-- An operator between two inputs. -/
structure IsIdle (fs₀ : List (Frame σ)) (fields : List Nat) (s₀ : RowStore)
    (op : ByPartition σ) : Prop extends op.IsBuilt fs₀ fields s₀ where
  last : op.last = none
  rows : op.store.Holds []

/-- An operator with frames that are new, and an empty store, is idle. -/
theorem isIdle_new {fs : List (Frame σ)} (hnew : ∀ f ∈ fs, f.renew = f) (fields : List Nat)
    (options : Options) (canSpill : Bool) :
    IsIdle fs fields { options, canSpill }
      { frames := fs, partition := fields, store := { options, canSpill } } where
  frames := map_eq_self hnew
  partition := rfl
  store := ⟨⟨[], RowStore.holds_of_spill_eq_none rfl rfl⟩, .refl _⟩
  last := rfl
  rows := RowStore.holds_of_spill_eq_none rfl rfl

/-- Neither preparing the frames nor answering rows changes what `G` says of them. -/
def KeepsFrames (G : Frame σ → Frame σ → Prop) (fs₀ : List (Frame σ)) (s₀ : RowStore) : Prop :=
  ∀ f ∈ fs₀, Action.Preserves (Beside (G f) s₀) Frame.prepare ∧
    ∀ index row, Action.Preserves (Beside (G f) s₀) (Frame.process index row)

/-- The frames are related to `fs₀` one by one, the store is sound, and the row that arrived last
is this one. -/
structure Carries (G : Frame σ → Frame σ → Prop) (fs₀ : List (Frame σ)) (fields : List Nat)
    (s₀ : RowStore) (last : Option Row) (op : ByPartition σ) : Prop where
  frames : List.Forall₂ G fs₀ op.frames
  partition : op.partition = fields
  store : s₀.Sound op.store
  last : op.last = last

theorem carries_kept_iff :
    op.Carries Frame.Kept fs₀ fields s₀ last ↔ op.IsBuilt fs₀ fields s₀ ∧ op.last = last := by
  have hframes : List.Forall₂ Frame.Kept fs₀ op.frames ↔ op.frames.map Frame.renew = fs₀ :=
    Action.Preserves.forall₂_iff_map_eq
  constructor
  · intro h
    exact ⟨⟨hframes.mp h.frames, h.partition, h.store⟩, h.last⟩
  · rintro ⟨h, hlast⟩
    exact ⟨hframes.mpr h.frames, h.partition, h.store, hlast⟩

theorem keepsFrames_kept (hfs : ∀ f ∈ fs₀, f.tally.IsBuiltin) : KeepsFrames Frame.Kept fs₀ s₀ :=
  fun f hf => ⟨Frame.preserves_kept_prepare (hfs f hf), Frame.preserves_kept_process (hfs f hf)⟩

section

variable {G : Frame σ → Frame σ → Prop}

theorem preserves_onFrames {α : Type} {x : Action (Frame σ × RowStore) α}
    (hx : ∀ f ∈ fs₀, Action.Preserves (Beside (G f) s₀) x) :
    Action.Preserves (fun s : ByPartition σ × ω => s.1.Carries G fs₀ fields s₀ last)
      (onFrames x) := by
  have heach : Action.Preserves (fun s : List (Frame σ) × RowStore =>
      List.Forall₂ G fs₀ s.1 ∧ s₀.Sound s.2) (Action.onEach x) := .onEach hx
  exact .fst_onFirst (heach.onPart (fun _ hop => ⟨hop.frames, hop.store⟩)
    fun _ _ hop hs => ⟨hs.1, hop.partition, hs.2, hop.last⟩)

theorem preserves_onStore {α : Type} {x : Action RowStore α} (hx : Action.Preserves s₀.Sound x) :
    Action.Preserves (fun s : ByPartition σ × ω => s.1.Carries G fs₀ fields s₀ last)
      (onStore x) :=
  .fst_onFirst (hx.onPart (fun _ hop => hop.store)
    fun _ _ hop hs => ⟨hop.frames, hop.partition, hs, hop.last⟩)

theorem preserves_evaluate (hG : KeepsFrames G fs₀ s₀) :
    Action.Preserves (fun s : ByPartition σ × ω => s.1.Carries G fs₀ fields s₀ last)
      (evaluate sink) := by
  have hanswer (index : Nat) : Action.Preserves
      (fun s : ByPartition σ × ω => s.1.Carries G fs₀ fields s₀ last) (answer sink index) := by
    refine .bind (preserves_onStore (RowStore.preserves_row index)) fun row => ?_
    exact .bind (preserves_onFrames fun f hf => (hG f hf).2 index row) fun _ => .fst_onSecond _
  refine .get fun _ _ => ?_
  exact .bind (.discard (preserves_onFrames fun f hf => (hG f hf).1)) fun _ =>
    .forM fun index _ => hanswer index

theorem flush_eq (op : ByPartition σ) (out : ω) :
    flush sink (op, out) =
      if op.store.isEmpty then .ok () ({ op with last := none }, out)
      else
        ((evaluate sink).andFinally fun (op, out) => ({ op with store := op.store.release }, out))
          ({ op with last := none }, out) := by
  unfold flush
  rw [Action.modify_bind, Action.get_bind]
  dsimp only
  by_cases hempty : op.store.isEmpty = true
  · rw [if_pos hempty, if_pos hempty]
    rfl
  · rw [if_neg hempty, if_neg hempty]

/-- **After a flush**, whether it succeeds or not, nothing is held: a store that was not empty has
been released. -/
theorem Carries.flush (h : op.Carries G fs₀ fields s₀ last) (hG : KeepsFrames G fs₀ s₀)
    (sink : Sink ω) (out : ω) :
    ((ByPartition.flush sink).outcome (op, out)).2.1.Carries G fs₀ fields s₀ none ∧
      ((ByPartition.flush sink).outcome (op, out)).2.1.store.Holds [] ∧
      ((ByPartition.flush sink).outcome (op, out)).2.1.store =
        if op.store.isEmpty then op.store else s₀.release := by
  have hnone : ({ op with last := none } : ByPartition σ).Carries G fs₀ fields s₀ none :=
    ⟨h.frames, h.partition, h.store, rfl⟩
  have hflush : ByPartition.flush sink (op, out) = _ := flush_eq op out
  by_cases hempty : op.store.isEmpty = true
  · -- an empty store is left as it is
    rw [if_pos hempty] at hflush
    rw [Action.outcome_of_ok hflush]
    obtain ⟨rows, hrows⟩ := h.store.1
    obtain rfl := hrows.isEmpty_iff.mp hempty
    exact ⟨hnone, hrows, (if_pos hempty).symm⟩
  · rw [if_neg hempty] at hflush
    have hpreserves : Action.Preserves
        (fun s : ByPartition σ × ω => s.1.Carries G fs₀ fields s₀ none) (evaluate sink) :=
      preserves_evaluate hG
    have hevaluate := hpreserves ({ op with last := none }, out) hnone
    have hrelease (op' : ByPartition σ) (h' : op'.Carries G fs₀ fields s₀ none) :
        ({ op' with store := op'.store.release } : ByPartition σ).Carries G fs₀ fields s₀ none :=
      ⟨h'.frames, h'.partition, ⟨⟨[], RowStore.holds_release _⟩, h'.store.2⟩, h'.last⟩
    simp only [Action.andFinally] at hflush
    cases hresult : evaluate sink ({ op with last := none }, out) with
    | ok u s =>
      rw [hresult] at hflush
      rw [Action.outcome_of_ok hresult] at hevaluate
      rw [Action.outcome_of_ok hflush, if_neg hempty]
      exact ⟨hrelease s.1 hevaluate, RowStore.holds_release _, hevaluate.store.2.release_eq⟩
    | error e s =>
      rw [hresult] at hflush
      rw [Action.outcome_of_error hresult] at hevaluate
      rw [Action.outcome_of_error hflush, if_neg hempty]
      exact ⟨hrelease s.1 hevaluate, RowStore.holds_release _, hevaluate.store.2.release_eq⟩

/-- Takes a row into the run that is open. -/
def keepRow (row : Row) : Action (ByPartition σ × ω) Unit := do
  modify fun (op, out) => ({ op with last := some row }, out)
  onStore (RowStore.append row)

theorem onStore_of_ok {α : Type} {x : Action RowStore α} {a : α} {s : RowStore}
    (h : x op.store = .ok a s) (out : ω) :
    onStore x (op, out) = .ok a ({ op with store := s }, out) :=
  Action.onFirst_of_ok (Action.onPart_of_ok h)

theorem onStore_of_error {α : Type} {x : Action RowStore α} {e : Error} {s : RowStore}
    (h : x op.store = .error e s) (out : ω) :
    onStore x (op, out) = .error e ({ op with store := s }, out) :=
  Action.onFirst_of_error (Action.onPart_of_error h)

theorem onFrames_of_ok {α : Type} {x : Action (Frame σ × RowStore) α} {as : List α}
    {fs : List (Frame σ)} {s : RowStore}
    (h : Action.onEach x (op.frames, op.store) = .ok as (fs, s)) (out : ω) :
    onFrames x (op, out) = .ok as ({ op with frames := fs, store := s }, out) := by
  simp only [onFrames, Action.onFirst, Action.onPart, h]

theorem keepRow_of_ok {row : Row} {s : RowStore} (h : RowStore.append row op.store = .ok () s)
    (out : ω) : keepRow row (op, out) = .ok () ({ op with last := some row, store := s }, out) := by
  have happend : RowStore.append row ({ op with last := some row } : ByPartition σ).store =
      .ok () s := h
  unfold keepRow
  rw [Action.modify_bind]
  exact onStore_of_ok happend out

/-- A row that the store refuses is the last row all the same. -/
theorem keepRow_of_error {row : Row} {e : Error} {s : RowStore}
    (h : RowStore.append row op.store = .error e s) (out : ω) :
    keepRow row (op, out) = .error e ({ op with last := some row, store := s }, out) := by
  have happend : RowStore.append row ({ op with last := some row } : ByPartition σ).store =
      .error e s := h
  unfold keepRow
  rw [Action.modify_bind]
  exact onStore_of_error happend out

theorem push_of_starts {row : Row} (h : op.startsPartition row = .ok true) (out : ω) :
    push sink row (op, out) = (flush sink >>= fun _ => keepRow row) (op, out) := by
  unfold push
  rw [Action.get_bind, h]
  rfl

theorem push_of_joins {row : Row} (h : op.startsPartition row = .ok false) (out : ω) :
    push sink row (op, out) = keepRow row (op, out) := by
  unfold push
  rw [Action.get_bind, h]
  rfl

theorem push_of_error {row : Row} {e : Error} (h : op.startsPartition row = .error e) (out : ω) :
    push sink row (op, out) = .error e (op, out) := by
  unfold push
  rw [Action.get_bind, h]
  rfl

/-- Keeping a row, whether it finds room or not, makes it the last one. -/
theorem Carries.keepRow (h : op.Carries G fs₀ fields s₀ last) (row : Row) (out : ω) :
    ((ByPartition.keepRow row).outcome (op, out)).2.1.Carries G fs₀ fields s₀ (some row) := by
  have hpreserves : Action.Preserves
      (fun s : ByPartition σ × ω => s.1.Carries G fs₀ fields s₀ (some row))
      (onStore (RowStore.append row)) := preserves_onStore (RowStore.preserves_append row)
  exact hpreserves ({ op with last := some row }, out) ⟨h.frames, h.partition, h.store, rfl⟩

end

/-! ### As it was built -/

/-- **After a flush** that succeeds, the operator is idle, whatever rows it has seen. -/
theorem isIdle_of_flush (hfs : ∀ f ∈ fs₀, f.tally.IsBuiltin) (hop : op.IsBuilt fs₀ fields s₀)
    {out out' : ω} {op' : ByPartition σ} (h : flush sink (op, out) = .ok () (op', out')) :
    op'.IsIdle fs₀ fields s₀ := by
  have hflush := (carries_kept_iff.mpr ⟨hop, rfl⟩).flush (keepsFrames_kept hfs) sink out
  rw [Action.outcome_of_ok h] at hflush
  obtain ⟨hbuilt, hlast⟩ := carries_kept_iff.mp hflush.1
  exact ⟨hbuilt, hlast, hflush.2.1⟩

theorem isBuilt_of_keepRow (hop : op.IsBuilt fs₀ fields s₀) {row : Row} {out out' : ω}
    {op' : ByPartition σ} (h : keepRow row (op, out) = .ok () (op', out')) :
    op'.IsBuilt fs₀ fields s₀ := by
  have hkeep := (carries_kept_iff.mpr ⟨hop, rfl⟩).keepRow row out
  rw [Action.outcome_of_ok h] at hkeep
  exact (carries_kept_iff.mp hkeep).1

theorem isBuilt_of_push (hfs : ∀ f ∈ fs₀, f.tally.IsBuiltin) (hop : op.IsBuilt fs₀ fields s₀)
    {row : Row} {out out' : ω} {op' : ByPartition σ}
    (h : push sink row (op, out) = .ok () (op', out')) : op'.IsBuilt fs₀ fields s₀ := by
  cases hstarts : op.startsPartition row with
  | error e =>
    rw [push_of_error hstarts] at h
    cases h
  | ok starts =>
    cases starts with
    | false =>
      rw [push_of_joins hstarts] at h
      exact isBuilt_of_keepRow hop h
    | true =>
      rw [push_of_starts hstarts] at h
      obtain ⟨⟨⟩, ⟨op₁, out₁⟩, hflush, h⟩ := Action.ok_of_bind_ok h
      exact isBuilt_of_keepRow (isIdle_of_flush hfs hop hflush).toIsBuilt h

/-! ## Answering a run -/

variable {run : List Row} {out : List Row}

/-- A step that reads the run beside its store, as a step of the operator. -/
theorem exists_onFrames {α : Type} {x : Action (Frame σ × RowStore) α} {as : List α}
    {gs : List (Frame σ)} (hx : Reads run (Action.onEach x) op.frames as gs)
    (hrun : op.store.Holds run) (out : ω) :
    ∃ t, onFrames x (op, out) = .ok as ({ op with frames := gs, store := t }, out) ∧
      t.Holds run := by
  obtain ⟨t, hxt, ht, -⟩ := hx op.store hrun
  exact ⟨t, onFrames_of_ok hxt out, ht⟩

/-- A row of the run is read off the store. -/
theorem exists_onStore_row {i : Nat} {row : Row} (hrow : run[i]? = some row)
    (hrun : op.store.Holds run) (out : ω) :
    ∃ s, onStore (RowStore.row i) (op, out) = .ok row ({ op with store := s }, out) ∧
      s.Holds run := by
  obtain ⟨s, hs, hsrun, -⟩ := hrun.row hrow
  exact ⟨s, onStore_of_ok hs out, hsrun⟩

theorem exists_answer {i : Nat} {row : Row} {values : List Row} {gs : List (Frame σ)}
    (hrow : run[i]? = some row)
    (hread : Reads run (Action.onEach (Frame.process i row)) op.frames values gs)
    (hrun : op.store.Holds run) (out : List Row) :
    ∃ t, answer Sink.collect i (op, out) =
        .ok () ({ op with frames := gs, store := t }, (row ++ values.flatten) :: out) ∧
      t.Holds run := by
  obtain ⟨s, honStore, hsrun⟩ := exists_onStore_row hrow hrun out
  obtain ⟨t, ht, htrun⟩ := @exists_onFrames _ _ { op with store := s } _ _ _ _ _ hread hsrun out
  refine ⟨t, ?_, htrun⟩
  rw [answer, Action.bind_of_ok honStore, Action.bind_of_ok ht]
  rfl

/-- The rows from position `i` on are answered in order. -/
theorem exists_forM_answer {v : Nat → List Row} (n : Nat) {i : Nat}
    (h : AnswersFrom (fun i row => Action.onEach (Frame.process i row)) run v i op.frames)
    (hn : i + n = run.length) (hrun : op.store.Holds run) (out : List Row) :
    ∃ op', (List.range' i n).forM (answer Sink.collect) (op, out) = .ok ()
      (op', (((run.drop i).zipIdx i).map fun p => p.1 ++ (v p.2).flatten).reverse ++ out) := by
  induction n generalizing i op out with
  | zero =>
    rw [List.drop_eq_nil_iff.mpr (by omega)]
    exact ⟨op, rfl⟩
  | succ n ih =>
    cases h with
    | done hi => omega
    | @row _ _ gs row hrow hread hrest =>
      obtain ⟨t, ht, htrun⟩ := exists_answer hrow hread hrun out
      obtain ⟨op', hop'⟩ := @ih { op with frames := gs, store := t } (i + 1) hrest (by omega) htrun
        ((row ++ (v i).flatten) :: out)
      obtain ⟨hi, rfl⟩ := List.getElem?_eq_some_iff.mp hrow
      refine ⟨op', ?_⟩
      rw [List.range'_succ, List.drop_eq_getElem_cons hi, List.zipIdx_cons, List.map_cons,
        List.reverse_cons, List.append_assoc]
      exact (Action.bind_of_ok ht).trans hop'

/-- **A run is answered** row by row, with what the frames answer on it. -/
theorem exists_evaluate {v : Frame σ → List Row → Nat → Row} (hop : op.frames.map Frame.renew = fs₀)
    (hv : ∀ f ∈ fs₀, f.Evaluates run (v f run)) (hrun : op.store.Holds run) (out : List Row) :
    ∃ op', evaluate Sink.collect (op, out) =
      .ok () (op', (WindowSpec.outputRows v fs₀ run).reverse ++ out) := by
  obtain ⟨fs₁, hprepare, hanswers⟩ := Frame.evaluatesAll_of_forall hv
  obtain ⟨us, hread⟩ := hprepare op.frames hop
  obtain ⟨t, ht, htrun⟩ := exists_onFrames hread hrun out
  obtain ⟨op', hop'⟩ := @exists_forM_answer _ { op with frames := fs₁, store := t } _ _ run.length 0
    hanswers (Nat.zero_add _) htrun out
  refine ⟨op', ?_⟩
  have hdiscard : discard (onFrames Frame.prepare) (op, out) =
      .ok () ({ op with frames := fs₁, store := t }, out) :=
    Action.bind_of_ok ht
  rw [evaluate, Action.get_bind, Action.bind_of_ok hdiscard, hrun.length_eq,
    List.range_eq_range', hop']
  rfl

/-- **A flush** puts the output of the run that is held into the sink. -/
theorem exists_flush {v : Frame σ → List Row → Nat → Row} (hop : op.frames.map Frame.renew = fs₀)
    (hv : ∀ f ∈ fs₀, f.Evaluates run (v f run)) (hrun : op.store.Holds run) (out : List Row) :
    ∃ op', flush Sink.collect (op, out) =
      .ok () (op', (WindowSpec.outputRows v fs₀ run).reverse ++ out) := by
  rw [flush_eq]
  by_cases hempty : op.store.isEmpty = true
  · obtain rfl := hrun.isEmpty_iff.mp hempty
    rw [if_pos hempty]
    exact ⟨_, rfl⟩
  · rw [if_neg hempty]
    obtain ⟨op', hop'⟩ := @exists_evaluate _ { op with last := none } _ _ v hop hv hrun out
    exact ⟨_, by simp only [Action.andFinally, hop']; rfl⟩

/-! ## Taking an input -/

theorem exists_keepRow (hop : op.IsBuilt fs₀ fields s₀) (hcan : s₀.canSpill = true) {row : Row}
    (hfits : SpillFile.Fits row) (out : ω) : ∃ s', keepRow row (op, out) = .ok () s' := by
  obtain ⟨t, ht⟩ := RowStore.append_succeeds op.store (hop.store.2.2.trans hcan) hfits
  exact ⟨_, keepRow_of_ok ht out⟩

/-- What is known when a row has been kept. -/
theorem of_keepRow (hop : op.IsBuilt fs₀ fields s₀) {row : Row} (hrun : op.store.Holds run)
    {out : ω} {s' : ByPartition σ × ω} (h : keepRow row (op, out) = .ok () s') :
    s'.2 = out ∧ s'.1.IsBuilt fs₀ fields s₀ ∧ s'.1.last = some row ∧
      s'.1.store.Holds (run ++ [row]) := by
  have hbuilt : s'.1.IsBuilt fs₀ fields s₀ := isBuilt_of_keepRow hop h
  have happended := hrun.append row
  cases happend : RowStore.append row op.store with
  | ok u t =>
    rw [keepRow_of_ok happend] at h
    rw [happend] at happended
    cases h
    exact ⟨rfl, hbuilt, rfl, happended.1⟩
  | error e t =>
    rw [keepRow_of_error happend] at h
    cases h

/-- The operator has taken these rows in: the run that is open is in the store, and the output of
all runs before it is in the sink, the last row in front. -/
structure HasTaken (spec : WindowSpec) (v : Frame σ → List Row → Nat → Row)
    (fs₀ : List (Frame σ)) (s₀ : RowStore) (input : List Row) (s : ByPartition σ × List Row) :
    Prop where
  built : s.1.IsBuilt fs₀ spec.partition s₀
  last : s.1.last = input.getLast?
  rows : s.1.store.Holds ((spec.runs input).getLast?.getD [])
  out : s.2 = ((spec.runs input).dropLast.flatMap (WindowSpec.outputRows v fs₀)).reverse

variable {spec : WindowSpec} {v : Frame σ → List Row → Nat → Row} {input : List Row}

theorem IsIdle.hasTaken (h : op.IsIdle fs₀ spec.partition s₀) :
    HasTaken spec v fs₀ s₀ [] (op, []) where
  built := h.toIsBuilt
  last := h.last
  rows := h.rows
  out := rfl

/-- What holds of an operator that takes conforming input. -/
structure Accepts (spec : WindowSpec) (types : List DataType)
    (v : Frame σ → List Row → Nat → Row) (fs₀ : List (Frame σ)) (s₀ : RowStore) : Prop where
  isBuiltin : ∀ f ∈ fs₀, f.tally.IsBuiltin
  evaluates : ∀ run, (∀ row ∈ run, Row.Conforms row types) → ∀ f ∈ fs₀, f.Evaluates run (v f run)
  fields : ∀ index ∈ spec.partition, ∃ type, fieldType types index = .ok type
  canSpill : s₀.canSpill = true

theorem rows_of_runs {r : List Row} (hinput : ∀ row ∈ input, Row.Conforms row types)
    (hr : r ∈ spec.runs input) : ∀ row ∈ r, Row.Conforms row types :=
  fun row hrow => hinput row (WindowSpec.mem_of_mem_runs hr hrow)

/-- A row that is kept joins the rows of its run that are in the store. -/
theorem hasTaken_of_keepRow (hop : op.IsBuilt fs₀ spec.partition s₀) {row : Row}
    (hrun : op.store.Holds run) {closed : List (List Row)}
    (hruns : spec.runs (input ++ [row]) = closed ++ [run ++ [row]])
    (hout : out = (closed.flatMap (WindowSpec.outputRows v fs₀)).reverse)
    {s' : ByPartition σ × List Row} (h : keepRow row (op, out) = .ok () s') :
    HasTaken spec v fs₀ s₀ (input ++ [row]) s' := by
  obtain ⟨hsink, hbuilt, hlast, hrows⟩ := of_keepRow hop hrun h
  refine ⟨hbuilt, ?_, ?_, ?_⟩
  · rw [List.getLast?_concat]
    exact hlast
  · rw [hruns, List.getLast?_concat]
    exact hrows
  · rw [hruns, List.dropLast_concat, hsink]
    exact hout

/-- **One more row** is kept, behind a flush where it starts a run. Whether it finds room is left
open. -/
theorem HasTaken.exists_push_eq {s₁ : RowStore} (ha : Accepts spec types v fs₀ s₁)
    {s : ByPartition σ × List Row} (h : HasTaken spec v fs₀ s₀ input s)
    (hinput : ∀ row ∈ input, Row.Conforms row types) {row : Row} (hrow : Row.Conforms row types) :
    ∃ (op' : ByPartition σ) (out' : List Row),
      ByPartition.push Sink.collect row s = keepRow row (op', out') ∧
      op'.IsBuilt fs₀ spec.partition s₀ ∧
      ∀ s', keepRow row (op', out') = .ok () s' → HasTaken spec v fs₀ s₀ (input ++ [row]) s' := by
  obtain ⟨op, out⟩ := s
  have hlast : op.last = input.getLast? := h.last
  have hrows : op.store.Holds ((spec.runs input).getLast?.getD []) := h.rows
  have hout : out = ((spec.runs input).dropLast.flatMap _).reverse := h.out
  by_cases hne : input = []
  · subst hne
    have hstarts : op.startsPartition row = .ok false := by
      unfold startsPartition
      rw [hlast]
      rfl
    have hfirst : spec.runs ([] ++ [row]) = [] ++ [[] ++ [row]] := rfl
    exact ⟨op, out, push_of_joins hstarts out, h.built,
      fun s' => hasTaken_of_keepRow h.built hrows hfirst hout⟩
  · obtain ⟨closed, run, last, hlastRow, hruns, hconcat⟩ := spec.runs_concat hne
    obtain ⟨b, hb⟩ := (hinput last (List.mem_of_getLast? hlastRow)).samePartition hrow ha.fields
    have hjoins : spec.joins last row = b := by rw [WindowSpec.joins, hb]
    have hstarts : op.startsPartition row = .ok !b := by
      unfold startsPartition
      rw [hlast, hlastRow, h.built.partition]
      exact Answer.bind_of_ok hb
    rw [hruns, List.getLast?_concat] at hrows
    rw [hruns, List.dropLast_concat] at hout
    have hnext := hconcat row
    rw [hjoins] at hnext
    cases b with
    | true =>
      -- the run `run ++ [last]` stays open and gets the row
      have hjoined : closed ++ [run ++ [last, row]] = closed ++ [run ++ [last] ++ [row]] := by
        rw [List.append_assoc run]
        rfl
      rw [if_pos rfl, hjoined] at hnext
      exact ⟨op, out, push_of_joins hstarts out, h.built,
        fun s' => hasTaken_of_keepRow h.built hrows hnext hout⟩
    | false =>
      -- the run `run ++ [last]` is closed and the row is the first of the next one
      have hclosed : closed ++ [run ++ [last], [row]] =
          closed ++ [run ++ [last]] ++ [[] ++ [row]] := by
        rw [List.append_assoc]
        rfl
      rw [if_neg nofun, hclosed] at hnext
      have hconforms := rows_of_runs hinput (hruns ▸ List.mem_append_right _ List.mem_cons_self)
      -- its output follows that of the runs before it
      obtain ⟨op₁, hflush⟩ := exists_flush h.built.frames (ha.evaluates _ hconforms) hrows out
      have hidle := isIdle_of_flush ha.isBuiltin h.built hflush
      have hout' : (WindowSpec.outputRows v fs₀ (run ++ [last])).reverse ++ out =
          ((closed ++ [run ++ [last]]).flatMap (WindowSpec.outputRows v fs₀)).reverse := by
        rw [List.flatMap_append, List.reverse_append, ← hout, List.flatMap_singleton]
      exact ⟨op₁, _, (push_of_starts hstarts out).trans (Action.bind_of_ok hflush),
        hidle.toIsBuilt, fun s' => hasTaken_of_keepRow hidle.toIsBuilt hidle.rows hnext hout'⟩

/-- **One more row** that fits is taken in where files can be created. -/
theorem HasTaken.push (ha : Accepts spec types v fs₀ s₀) {s : ByPartition σ × List Row}
    (h : HasTaken spec v fs₀ s₀ input s) (hinput : ∀ row ∈ input, Row.Conforms row types)
    {row : Row} (hrow : Row.Conforms row types) (hfits : SpillFile.Fits row) :
    ∃ s', ByPartition.push Sink.collect row s = .ok () s' ∧
      HasTaken spec v fs₀ s₀ (input ++ [row]) s' := by
  obtain ⟨op, out, hpush, hbuilt, htaken⟩ := h.exists_push_eq ha hinput hrow
  obtain ⟨s', hkeep⟩ := exists_keepRow hbuilt ha.canSpill hfits out
  exact ⟨s', hpush.trans hkeep, htaken s' hkeep⟩

/-- Rows that were taken in without an error, whether all rows fit or files can be created. -/
theorem HasTaken.of_forM {s₁ : RowStore} (ha : Accepts spec types v fs₀ s₁)
    {s s' : ByPartition σ × List Row} {rest : List Row} (h : HasTaken spec v fs₀ s₀ input s)
    (hinput : ∀ row ∈ input ++ rest, Row.Conforms row types)
    (hforM : rest.forM (ByPartition.push Sink.collect) s = .ok () s') :
    HasTaken spec v fs₀ s₀ (input ++ rest) s' := by
  induction rest generalizing input s with
  | nil =>
    cases hforM
    rwa [List.append_nil]
  | cons row rest ih =>
    obtain ⟨⟨⟩, s₂, hpush, hrest⟩ := Action.ok_of_bind_ok hforM
    obtain ⟨op, out, heq, -, htaken⟩ := h.exists_push_eq ha
      (fun row hrow => hinput row (List.mem_append_left _ hrow))
      (hinput row (List.mem_append_right _ List.mem_cons_self))
    rw [List.append_cons] at hinput ⊢
    exact ih (htaken s₂ (heq.symm.trans hpush)) hinput hrest

/-- **A whole input.** -/
theorem HasTaken.forM (ha : Accepts spec types v fs₀ s₀) {s : ByPartition σ × List Row}
    (rest : List Row) (h : HasTaken spec v fs₀ s₀ input s)
    (hinput : ∀ row ∈ input ++ rest, Row.Conforms row types ∧ SpillFile.Fits row) :
    ∃ s', rest.forM (ByPartition.push Sink.collect) s = .ok () s' ∧
      HasTaken spec v fs₀ s₀ (input ++ rest) s' := by
  induction rest generalizing input s with
  | nil =>
    refine ⟨s, rfl, ?_⟩
    rwa [List.append_nil]
  | cons row rest ih =>
    obtain ⟨hrow, hfits⟩ := hinput row (List.mem_append_right _ List.mem_cons_self)
    obtain ⟨s₁, hpush, h₁⟩ := h.push ha
      (fun row hrow => (hinput row (List.mem_append_left _ hrow)).1) hrow hfits
    rw [List.append_cons] at hinput ⊢
    obtain ⟨s', hforM, h'⟩ := ih h₁ hinput
    exact ⟨s', (Action.bind_of_ok hpush).trans hforM, h'⟩

/-- **The end of the input.** The output of all runs is in the sink, and the operator is idle. -/
theorem HasTaken.finish {s₁ : RowStore} (ha : Accepts spec types v fs₀ s₁)
    {s : ByPartition σ × List Row} (h : HasTaken spec v fs₀ s₀ input s)
    (hinput : ∀ row ∈ input, Row.Conforms row types) :
    ∃ op', ByPartition.finish Sink.collect s =
        .ok () (op', ((spec.runs input).flatMap (WindowSpec.outputRows v fs₀)).reverse) ∧
      op'.IsIdle fs₀ spec.partition s₀ := by
  obtain ⟨op, out⟩ := s
  have hconforms : ∀ row ∈ (spec.runs input).getLast?.getD [], Row.Conforms row types := by
    cases hlast : (spec.runs input).getLast? with
    | none => exact nofun
    | some r => exact rows_of_runs hinput (List.mem_of_getLast? hlast)
  obtain ⟨op', hflush⟩ := exists_flush h.built.frames (ha.evaluates _ hconforms) h.rows out
  refine ⟨op', hflush.trans ?_, isIdle_of_flush ha.isBuiltin h.built hflush⟩
  have hout : out = ((spec.runs input).dropLast.flatMap _).reverse := h.out
  rw [hout, ← List.reverse_append]
  rcases List.eq_nil_or_concat (spec.runs input) with hnil | ⟨closed, r, hruns⟩
  · rw [hnil]
    rfl
  · rw [hruns, List.concat_eq_append, List.dropLast_concat, List.getLast?_concat,
      List.flatMap_append]
    simp

end ByPartition

end SqlWindow
