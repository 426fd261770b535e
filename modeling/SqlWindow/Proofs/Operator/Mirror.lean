import SqlWindow.Operator.Basic
import SqlWindow.Proofs.Frame.Forgets
import SqlWindow.Proofs.Operator.ByPartition
import SqlWindow.Proofs.Operator.RowByRow

set_option autoImplicit false

/-! # Operators that mirror each other

Two operators mirror each other when they were given the same rows and cannot be told apart by
what they do next. Their stores may lie in different places, and their accumulators may hold
different leavings of earlier partitions; whatever rows follow, they answer alike and mirror each
other again, through errors as well as through successes.

The receivers of the output need not be the same either. They have to take and refuse the same
rows, which is what `Receives` says.
-/

namespace SqlWindow

variable {σ ω ω' : Type}

/-- Two sinks in states related by `O` take the same rows and refuse the same rows, with the same
errors, and their states remain related. -/
def Receives (O : ω → ω' → Prop) (sink : Sink ω) (sink' : Sink ω') : Prop :=
  ∀ row, Action.Agree O O O (sink.emit row) (sink'.emit row)

theorem Receives.refl (sink : Sink ω) : Receives Eq sink sink := fun row => .refl (sink.emit row)

variable {O : ω → ω' → Prop} {sink : Sink ω} {sink' : Sink ω'}

/-! ## Operators that collect partitions -/

namespace ByPartition

/-- The stores of the operators hold the same rows, and their frames are related by `F`. -/
structure Mirror (F : Frame σ → Frame σ → Prop) (s₀ t₀ : RowStore) (rows : List Row)
    (op op' : ByPartition σ) : Prop where
  frames : List.Forall₂ F op.frames op'.frames
  partition : op.partition = op'.partition
  last : op.last = op'.last
  store : RowStore.Mirror s₀ t₀ rows op.store op'.store

variable {F F' E : Frame σ → Frame σ → Prop} {s₀ t₀ : RowStore} {rows : List Row}
  {op op' : ByPartition σ}

theorem Mirror.mono (h : Mirror F s₀ t₀ rows op op') (hF : ∀ f g, F f g → F' f g) :
    Mirror F' s₀ t₀ rows op op' :=
  ⟨h.frames.imp hF, h.partition, h.last, h.store⟩

/-- Frames that are equal are twins. -/
theorem twin_of_eq (f g : Frame σ) (h : f = g) : f.Twin g := h ▸ .refl f

theorem keepsFrames_twin {fs₀ : List (Frame σ)} (hfs : ∀ f ∈ fs₀, f.tally.Forgets) :
    KeepsFrames Frame.Twin fs₀ s₀ :=
  fun f hf => ⟨Frame.preserves_twin_prepare (hfs f hf), Frame.preserves_twin_process (hfs f hf)⟩

theorem startsPartition_eq (h : Mirror F s₀ t₀ rows op op') (row : Row) :
    op.startsPartition row = op'.startsPartition row := by
  unfold startsPartition
  rw [h.last, h.partition]

theorem agree_onFrames {α : Type} {x : Action (Frame σ × RowStore) α}
    (hx : Action.Agree (Action.Abreast F (RowStore.Mirror s₀ t₀ rows))
      (Action.Abreast F' (RowStore.Mirror s₀ t₀ rows))
      (Action.Abreast E (RowStore.Mirror s₀ t₀ rows)) x x)
    (hF : ∀ f g, F f g → E f g) (hF' : ∀ f g, F' f g → E f g) :
    Action.Agree (Action.Abreast (Mirror F s₀ t₀ rows) O) (Action.Abreast (Mirror F' s₀ t₀ rows) O)
      (Action.Abreast (Mirror E s₀ t₀ rows) O) (onFrames x) (onFrames x) := by
  have hwith {H : Frame σ → Frame σ → Prop} (op op' : ByPartition σ)
      (hop : Mirror F s₀ t₀ rows op op') (s t : List (Frame σ) × RowStore)
      (hst : Action.Abreast (List.Forall₂ H) (RowStore.Mirror s₀ t₀ rows) s t) :
      Mirror H s₀ t₀ rows { op with frames := s.1, store := s.2 }
        { op' with frames := t.1, store := t.2 } :=
    ⟨hst.1, hop.partition, hop.last, hst.2⟩
  exact .onFirst (.onPart (.onEach hx hF hF') (fun _ _ hop => ⟨hop.frames, hop.store⟩) hwith hwith)

theorem agree_onStore_row (index : Nat) :
    Action.Agree (Action.Abreast (Mirror F s₀ t₀ rows) O) (Action.Abreast (Mirror F s₀ t₀ rows) O)
      (Action.Abreast (Mirror F s₀ t₀ rows) O) (onStore (RowStore.row index))
      (onStore (RowStore.row index)) := by
  have hwith (op op' : ByPartition σ) (hop : Mirror F s₀ t₀ rows op op') (s t : RowStore)
      (hst : RowStore.Mirror s₀ t₀ rows s t) :
      Mirror F s₀ t₀ rows { op with store := s } { op' with store := t } :=
    ⟨hop.frames, hop.partition, hop.last, hst⟩
  exact .onFirst (.onPart (RowStore.agree_row index) (fun _ _ hop => hop.store) hwith hwith)

/-- Once their frames are prepared, the operators answer each row alike. -/
theorem agree_answer (hsinks : Receives O sink sink') (index : Nat) :
    Action.Agree (Action.Abreast (Mirror (σ := σ) Eq s₀ t₀ rows) O)
      (Action.Abreast (Mirror Eq s₀ t₀ rows) O) (Action.Abreast (Mirror Eq s₀ t₀ rows) O)
      (answer sink index) (answer sink' index) := by
  refine .bind (agree_onStore_row index) ?_
  intro row
  refine .bind (agree_onFrames (Frame.seesRows_process index row) (fun _ _ h => h) fun _ _ h => h)
    fun values => ?_
  exact .onSecond (hsinks (row ++ values.flatten))

theorem agree_evaluate (hsinks : Receives O sink sink') :
    Action.Agree (Action.Abreast (Mirror (σ := σ) Frame.Twin s₀ t₀ rows) O)
      (Action.Abreast (Mirror Frame.Twin s₀ t₀ rows) O)
      (Action.Abreast (Mirror Frame.Twin s₀ t₀ rows) O) (evaluate sink) (evaluate sink') := by
  have hanswers (indices : List Nat) :
      Action.Agree (Action.Abreast (Mirror (σ := σ) Eq s₀ t₀ rows) O)
        (Action.Abreast (Mirror Eq s₀ t₀ rows) O) (Action.Abreast (Mirror Eq s₀ t₀ rows) O)
        (indices.forM (answer sink)) (indices.forM (answer sink')) :=
    .forM fun index _ => agree_answer hsinks index
  refine .get ?_
  intro s t hst
  rw [hst.1.store.length_eq]
  refine .bind (.discard (agree_onFrames Frame.agree_prepare (fun _ _ h => h) twin_of_eq))
    fun _ => ?_
  refine (hanswers _).mono (fun _ _ h => h) ?_ ?_
  · exact fun _ _ h => ⟨h.1.mono twin_of_eq, h.2⟩
  · exact fun _ _ h => ⟨h.1.mono twin_of_eq, h.2⟩

/-- A flush leaves both stores empty, whether it succeeds or not. -/
theorem agree_flush (hsinks : Receives O sink sink') :
    Action.Agree (Action.Abreast (Mirror (σ := σ) Frame.Twin s₀ t₀ rows) O)
      (Action.Abreast (Mirror Frame.Twin s₀ t₀ []) O)
      (Action.Abreast (Mirror Frame.Twin s₀ t₀ []) O) (flush sink) (flush sink') := by
  rintro ⟨op, out⟩ ⟨op', out'⟩ ⟨hop, hout⟩
  dsimp only at hop hout
  rw [flush_eq, flush_eq]
  have hnone : Action.Abreast (Mirror Frame.Twin s₀ t₀ rows) O
      ({ op with last := none }, out) ({ op' with last := none }, out') :=
    ⟨⟨hop.frames, hop.partition, rfl, hop.store⟩, hout⟩
  have hempty : op.store.isEmpty = op'.store.isEmpty := by
    rw [Bool.eq_iff_iff, hop.store.1.1.isEmpty_iff, hop.store.2.1.isEmpty_iff]
  rw [hempty]
  by_cases hnil : op'.store.isEmpty = true
  · rw [if_pos hnil, if_pos hnil]
    obtain rfl := hop.store.2.1.isEmpty_iff.mp hnil
    exact .ok hnone
  · rw [if_neg hnil, if_neg hnil]
    have hrelease (s : ByPartition σ × ω) (t : ByPartition σ × ω')
        (hst : Action.Abreast (Mirror Frame.Twin s₀ t₀ rows) O s t) :
        Action.Abreast (Mirror Frame.Twin s₀ t₀ []) O
          ({ s.1 with store := s.1.store.release }, s.2)
          ({ t.1 with store := t.1.store.release }, t.2) :=
      ⟨⟨hst.1.frames, hst.1.partition, hst.1.last, ⟨RowStore.holds_release _, hst.1.store.1.2⟩,
        RowStore.holds_release _, hst.1.store.2.2⟩, hst.2⟩
    exact (agree_evaluate hsinks).andFinally hrelease hrelease _ _ hnone

/-- A row that fits is kept by both operators, where files can be created. -/
theorem agree_keepRow {E : ByPartition σ × ω → ByPartition σ × ω' → Prop}
    (hs₀ : s₀.canSpill = true) (ht₀ : t₀.canSpill = true) {row : Row}
    (hfits : SpillFile.Fits row) :
    Action.Agree (Action.Abreast (Mirror F s₀ t₀ rows) O)
      (Action.Abreast (Mirror F s₀ t₀ (rows ++ [row])) O) E (keepRow row) (keepRow row) := by
  refine .bind (Q := Action.Abreast (Mirror F s₀ t₀ rows) O) (.modify fun s t hst => ?_)
    fun _ => ?_
  · exact ⟨⟨hst.1.frames, hst.1.partition, rfl, hst.1.store⟩, hst.2⟩
  · -- no error is met, so any relation will do behind one
    have hstore : Action.Agree (Mirror F s₀ t₀ rows) (Mirror F s₀ t₀ (rows ++ [row]))
        (fun _ _ => False)
        (Action.onPart store (fun op store => { op with store }) (RowStore.append row))
        (Action.onPart store (fun op store => { op with store }) (RowStore.append row)) := by
      refine .onPart (RowStore.agree_append hs₀ ht₀ hfits) (fun _ _ hop => hop.store) ?_
        fun _ _ _ _ _ h => h
      exact fun op op' hop s t hst => ⟨hop.frames, hop.partition, hop.last, hst⟩
    exact .onPart hstore (fun _ _ hst => hst.1) (fun _ _ hst _ _ hop => ⟨hop, hst.2⟩)
      fun _ _ _ _ _ h => h.elim

/-- The operators mirror each other: they hold the same rows, and their frames are twins. -/
def Mirrors (s₀ t₀ : RowStore) (op op' : ByPartition σ) : Prop :=
  ∃ rows, Mirror Frame.Twin s₀ t₀ rows op op'

theorem agree_of_forall {α : Type} {P : List Row → ByPartition σ → ByPartition σ → Prop}
    {Q E : ByPartition σ × ω → ByPartition σ × ω' → Prop} {x : Action (ByPartition σ × ω) α}
    {y : Action (ByPartition σ × ω') α}
    (h : ∀ rows, Action.Agree (Action.Abreast (P rows) O) Q E x y) :
    Action.Agree (Action.Abreast (fun op op' => ∃ rows, P rows op op') O) Q E x y := by
  rintro s t ⟨⟨rows, hop⟩, hout⟩
  exact h rows s t ⟨hop, hout⟩

theorem agree_finish (hsinks : Receives O sink sink') :
    Action.Agree (Action.Abreast (Mirrors (σ := σ) s₀ t₀) O) (Action.Abreast (Mirrors s₀ t₀) O)
      (Action.Abreast (Mirrors s₀ t₀) O) (finish sink) (finish sink') := by
  refine agree_of_forall fun rows => (agree_flush hsinks).mono (fun _ _ h => h) ?_ ?_
  · exact fun _ _ h => ⟨⟨[], h.1⟩, h.2⟩
  · exact fun _ _ h => ⟨⟨[], h.1⟩, h.2⟩

/-- **One more row.** Operators that mirror each other answer it alike, and mirror each other
again. -/
theorem agree_push (hsinks : Receives O sink sink') (hs₀ : s₀.canSpill = true)
    (ht₀ : t₀.canSpill = true) {row : Row} (hfits : SpillFile.Fits row) :
    Action.Agree (Action.Abreast (Mirrors (σ := σ) s₀ t₀) O) (Action.Abreast (Mirrors s₀ t₀) O)
      (Action.Abreast (Mirrors s₀ t₀) O) (push sink row) (push sink' row) := by
  have hkeep : Action.Agree (Action.Abreast (Mirrors (σ := σ) s₀ t₀) O)
      (Action.Abreast (Mirrors s₀ t₀) O) (Action.Abreast (Mirrors s₀ t₀) O) (keepRow row)
      (keepRow row) :=
    agree_of_forall fun rows => (agree_keepRow hs₀ ht₀ hfits).mono (fun _ _ h => h)
      (fun _ _ h => ⟨⟨rows ++ [row], h.1⟩, h.2⟩) fun _ _ h => h
  refine .get ?_
  intro s t hst
  obtain ⟨rows, hop⟩ := hst.1
  rw [startsPartition_eq hop row]
  refine .bind (.ofExcept _) ?_
  intro starts
  cases starts with
  | true => exact .bind (agree_finish hsinks) fun _ => hkeep
  | false => exact hkeep

end ByPartition

/-! ## Operators that work row by row -/

namespace RowByRow

/-- The operators are equal, or at least no row is open and they are equal once a partition is
started. -/
structure Mirrors (op op' : RowByRow σ) : Prop where
  prepare_eq : op.prepare = op'.prepare
  eq_of_last : op.last ≠ none → op = op'

variable {op op' : RowByRow σ}

theorem Mirrors.refl (op : RowByRow σ) : op.Mirrors op := ⟨rfl, fun _ => rfl⟩

theorem Mirrors.last_eq (h : op.Mirrors op') : op.last = op'.last := by
  have hlast : op.prepare.last = op'.prepare.last := congrArg last h.prepare_eq
  exact hlast

theorem Mirrors.partition_eq (h : op.Mirrors op') : op.partition = op'.partition := by
  have hpartition : op.prepare.partition = op'.prepare.partition := congrArg partition h.prepare_eq
  exact hpartition

theorem Mirrors.startsPartition_eq (h : op.Mirrors op') (row : Row) :
    op.startsPartition row = op'.startsPartition row := by
  unfold startsPartition
  rw [h.last_eq, h.partition_eq]

theorem Mirrors.atRow_eq (h : op.Mirrors op') {row : Row} {starts : Bool}
    (hstarts : op.startsPartition row = .ok starts) : op.atRow starts = op'.atRow starts := by
  cases starts with
  | true => exact h.prepare_eq
  | false =>
    -- only behind a row of its own partition a row starts none
    refine h.eq_of_last ?_
    intro hlast
    unfold startsPartition at hstarts
    rw [hlast] at hstarts
    cases hstarts

theorem agree_finish :
    Action.Agree (Action.Abreast (Mirrors (σ := σ)) O) (Action.Abreast Mirrors O)
      (Action.Abreast Mirrors O) finish finish := by
  refine .modify fun s t hst => ⟨⟨?_, fun h => absurd rfl h⟩, hst.2⟩
  exact congrArg (fun op => { op with last := none }) hst.1.prepare_eq

/-- **One more row.** -/
theorem agree_push (hsinks : Receives O sink sink') (row : Row) :
    Action.Agree (Action.Abreast (Mirrors (σ := σ)) O) (Action.Abreast Mirrors O)
      (Action.Abreast Mirrors O) (push sink row) (push sink' row) := by
  have hsame : Action.Agree (Action.Abreast (Eq (α := RowByRow σ)) O) (Action.Abreast Eq O)
      (Action.Abreast Eq O) (answerRow sink row) (answerRow sink' row) := by
    refine .bind (.onFirst (.refl (values row))) ?_
    intro values
    refine .bind (Q := Action.Abreast Eq O) (.modify fun s t hst => ⟨?_, hst.2⟩) fun _ => ?_
    · exact congrArg (fun op : RowByRow σ => { op with last := some row }) hst.1
    · exact .onSecond (hsinks (row ++ values.flatten))
  rintro ⟨op, out⟩ ⟨op', out'⟩ ⟨hop, hout⟩
  dsimp only at hop hout
  have hstarts := hop.startsPartition_eq row
  cases hb : op'.startsPartition row with
  | error e =>
    rw [hb] at hstarts
    unfold push
    rw [Action.get_bind, Action.get_bind, hstarts, hb]
    exact .error ⟨hop, hout⟩
  | ok starts =>
    rw [hb] at hstarts
    rw [push_eq hstarts, push_eq hb, hop.atRow_eq hstarts]
    refine (hsame _ _ ⟨rfl, hout⟩).mono ?_ ?_
    · exact fun s t hst => ⟨hst.1 ▸ .refl s.1, hst.2⟩
    · exact fun s t hst => ⟨hst.1 ▸ .refl s.1, hst.2⟩

end RowByRow

/-! ## Operators -/

namespace WindowOperator

/-- The operators are of one kind. Those that work row by row mirror each other, those that collect
partitions are related by `B`. -/
inductive Paired (B : ByPartition σ → ByPartition σ → Prop) :
    WindowOperator σ → WindowOperator σ → Prop where
  | rowByRow {op op' : RowByRow σ} (h : op.Mirrors op') : Paired B (rowByRow op) (rowByRow op')
  | byPartition {op op' : ByPartition σ} (h : B op op') :
      Paired B (byPartition op) (byPartition op')

/-- Steps of operators of one kind, as steps of operators. -/
theorem agree_within {φ α : Type} {B : ByPartition σ → ByPartition σ → Prop}
    {wrap : φ → WindowOperator σ} {P : φ → φ → Prop} {x : Action (φ × ω) α}
    {y : Action (φ × ω') α}
    (h : Action.Agree (Action.Abreast P O) (Action.Abreast P O) (Action.Abreast P O) x y)
    (hwrap : ∀ op op', P op op' → Paired B (wrap op) (wrap op')) {op op' : φ} (hop : P op op') :
    Action.Agree (Action.Abreast (Paired B) O) (Action.Abreast (Paired B) O)
      (Action.Abreast (Paired B) O) (within op wrap x) (within op' wrap y) := by
  refine .onPart h (fun _ _ hst => ⟨hop, hst.2⟩) ?_ ?_
  · exact fun _ _ _ p q hpq => ⟨hwrap p.1 q.1 hpq.1, hpq.2⟩
  · exact fun _ _ _ p q hpq => ⟨hwrap p.1 q.1 hpq.1, hpq.2⟩

/-! ### What agrees on partitions agrees -/

section

variable {B : ByPartition σ → ByPartition σ → Prop}

theorem agree_push_of (hsinks : Receives O sink sink') {row : Row}
    (h : Action.Agree (Action.Abreast B O) (Action.Abreast B O) (Action.Abreast B O)
      (ByPartition.push sink row) (ByPartition.push sink' row)) :
    Action.Agree (Action.Abreast (Paired B) O) (Action.Abreast (Paired B) O)
      (Action.Abreast (Paired B) O) (push sink row) (push sink' row) := by
  refine .get ?_
  rintro ⟨_, out⟩ ⟨_, out'⟩ ⟨hop, -⟩
  cases hop with
  | rowByRow hop => exact agree_within (RowByRow.agree_push hsinks row) (fun _ _ => .rowByRow) hop
  | byPartition hop => exact agree_within h (fun _ _ => .byPartition) hop

theorem agree_finish_of
    (h : Action.Agree (Action.Abreast B O) (Action.Abreast B O) (Action.Abreast B O)
      (ByPartition.finish sink) (ByPartition.finish sink')) :
    Action.Agree (Action.Abreast (Paired B) O) (Action.Abreast (Paired B) O)
      (Action.Abreast (Paired B) O) (finish sink) (finish sink') := by
  refine .get ?_
  rintro ⟨_, out⟩ ⟨_, out'⟩ ⟨hop, -⟩
  cases hop with
  | rowByRow hop => exact agree_within RowByRow.agree_finish (fun _ _ => .rowByRow) hop
  | byPartition hop => exact agree_within h (fun _ _ => .byPartition) hop

/-- **An execution** of operators whose steps agree gives the same rows or the same error. -/
theorem agree_execute_of (input : List Row)
    (hpush : ∀ row ∈ input, Action.Agree (Action.Abreast B Eq) (Action.Abreast B Eq)
      (Action.Abreast B Eq) (ByPartition.push Sink.collect row) (ByPartition.push Sink.collect row))
    (hfinish : Action.Agree (Action.Abreast B Eq) (Action.Abreast B Eq) (Action.Abreast B Eq)
      (ByPartition.finish Sink.collect) (ByPartition.finish Sink.collect)) :
    Action.Agree (Paired B) (Paired B) (Paired B) (execute input) (execute input) := by
  have hrun : Action.Agree (Action.Abreast (Paired B) Eq) (Action.Abreast (Paired B) Eq)
      (Action.Abreast (Paired B) Eq) (run Sink.collect input) (run Sink.collect input) := by
    refine .bind (.forM fun row hrow => ?_) fun _ => agree_finish_of hfinish
    exact agree_push_of (.refl Sink.collect) (hpush row hrow)
  intro op op' hop
  have halike := hrun (op, []) (op', []) ⟨hop, rfl⟩
  simp only [execute]
  generalize run Sink.collect input (op, []) = r at halike
  generalize run Sink.collect input (op', []) = q at halike
  cases halike with
  | @ok u s t h =>
    show Action.Alike _ _ (.ok s.2.reverse s.1) (.ok t.2.reverse t.1)
    rw [h.2]
    exact .ok h.1
  | error h => exact .error h.1

end

/-! ### Operators with the same rows in different stores -/

/-- The operators are of one kind and mirror each other. -/
abbrev Mirrors (s₀ t₀ : RowStore) : WindowOperator σ → WindowOperator σ → Prop :=
  Paired (ByPartition.Mirrors s₀ t₀)

variable {s₀ t₀ : RowStore}

/-- **One more row.** -/
theorem agree_push (hsinks : Receives O sink sink') (hs₀ : s₀.canSpill = true)
    (ht₀ : t₀.canSpill = true) {row : Row} (hfits : SpillFile.Fits row) :
    Action.Agree (Action.Abreast (Mirrors (σ := σ) s₀ t₀) O) (Action.Abreast (Mirrors s₀ t₀) O)
      (Action.Abreast (Mirrors s₀ t₀) O) (push sink row) (push sink' row) :=
  agree_push_of hsinks (ByPartition.agree_push hsinks hs₀ ht₀ hfits)

/-- **The end of the input.** -/
theorem agree_finish (hsinks : Receives O sink sink') :
    Action.Agree (Action.Abreast (Mirrors (σ := σ) s₀ t₀) O) (Action.Abreast (Mirrors s₀ t₀) O)
      (Action.Abreast (Mirrors s₀ t₀) O) (finish sink) (finish sink') :=
  agree_finish_of (ByPartition.agree_finish hsinks)

/-! ### Operators of one specification -/

variable {spec : WindowSpec} {types : List DataType} {options options' : Options}
  {canSpill canSpill' : Bool} {registry : Registry σ} {op op' : WindowOperator σ}

/-- What an operator is built of. Options only tell its store how to keep rows. -/
theorem ofSpec_eq_ok_iff :
    ofSpec spec types options canSpill registry = .ok op ↔
      spec.check types registry = .ok () ∧
        ((spec.needsBuffering registry = true ∧
          ∃ frames, spec.groups.mapM (Frame.ofGroup · registry) = .ok frames ∧
            byPartition
              { frames := frames.flatten, partition := spec.partition,
                store := { options, canSpill } } = op) ∨
        (spec.needsBuffering registry = false ∧
          ∃ frames, spec.groups.mapM (forwardFrame registry) = .ok frames ∧
            rowByRow { frames, partition := spec.partition } = op)) := by
  unfold ofSpec
  rw [Answer.bind_eq_ok_iff, Unique.exists_iff]
  refine and_congr_right ?_
  intro _
  cases hneeds : spec.needsBuffering registry with
  | true => simp [Answer.map_eq_ok_iff]
  | false => simp [Answer.map_eq_ok_iff]

/-- An operator can be built with all options when it can with some. -/
theorem exists_ofSpec_of_ofSpec (h : ofSpec spec types options canSpill registry = .ok op)
    (options' : Options) (canSpill' : Bool) :
    ∃ op', ofSpec spec types options' canSpill' registry = .ok op' := by
  obtain ⟨hcheck, ⟨hneeds, frames, hframes, -⟩ | ⟨hneeds, frames, hframes, -⟩⟩ :=
    ofSpec_eq_ok_iff.mp h
  · exact ⟨_, ofSpec_eq_ok_iff.mpr ⟨hcheck, .inl ⟨hneeds, frames, hframes, rfl⟩⟩⟩
  · exact ⟨_, ofSpec_eq_ok_iff.mpr ⟨hcheck, .inr ⟨hneeds, frames, hframes, rfl⟩⟩⟩

/-- **Operators of one specification** mirror each other, whatever their options. -/
theorem mirrors_of_ofSpec (h : ofSpec spec types options canSpill registry = .ok op)
    (h' : ofSpec spec types options' canSpill' registry = .ok op') :
    Mirrors { options, canSpill } { options := options', canSpill := canSpill' } op op' := by
  obtain ⟨-, h⟩ := ofSpec_eq_ok_iff.mp h
  obtain ⟨-, h'⟩ := ofSpec_eq_ok_iff.mp h'
  have hempty (options : Options) (canSpill : Bool) : RowStore.Holds { options, canSpill } [] :=
    RowStore.holds_of_spill_eq_none rfl rfl
  rcases h with ⟨hneeds, frames, hframes, rfl⟩ | ⟨hneeds, frames, hframes, rfl⟩
  · rcases h' with ⟨-, frames', hframes', rfl⟩ | ⟨hneeds', -⟩
    · obtain rfl : frames = frames' := Except.ok.inj (hframes.symm.trans hframes')
      refine .byPartition ⟨[], List.forall₂_same.mpr fun f _ => .refl f, rfl, rfl, ?_⟩
      exact ⟨⟨hempty options canSpill, .refl _⟩, hempty options' canSpill', .refl _⟩
    · rw [hneeds] at hneeds'
      cases hneeds'
  · rcases h' with ⟨hneeds', -⟩ | ⟨-, frames', hframes', rfl⟩
    · rw [hneeds] at hneeds'
      cases hneeds'
    · obtain rfl : frames = frames' := Except.ok.inj (hframes.symm.trans hframes')
      exact .rowByRow (.refl _)

end WindowOperator

end SqlWindow
