import SqlWindow.Proofs.Operator.Execute
import SqlWindow.Proofs.Operator.Offers

set_option autoImplicit false

/-! # Executions one after the other

An execution that ends, and one that fails while a partition is answered, leave nothing behind: the
next one is as good as the first. An execution that fails on one of its rows stops there without
ending the input. What it has held back until then stays, and comes out with the next execution;
what tells the two cases apart is whether there is a last row.
-/

namespace SqlWindow

variable {σ ω : Type}

/-- Two results are alike when the answers are the same and the states behind them are related. -/
theorem Action.Alike.of_outcome {σ τ α : Type} {Q : σ → τ → Prop} {x : Action σ α}
    {y : Action τ α} {s : σ} {t : τ} (hanswer : (x.outcome s).1 = (y.outcome t).1)
    (h : Q (x.outcome s).2 (y.outcome t).2) : Action.Alike Q Q (x s) (y t) := by
  unfold Action.outcome at hanswer h
  cases hx : x s with
  | ok a s' =>
    cases hy : y t with
    | ok b t' =>
      rw [hx, hy] at hanswer h
      obtain rfl : a = b := Except.ok.inj hanswer
      exact .ok h
    | error e t' =>
      rw [hx, hy] at hanswer
      cases hanswer
  | error e s' =>
    cases hy : y t with
    | ok b t' =>
      rw [hx, hy] at hanswer
      cases hanswer
    | error e' t' =>
      rw [hx, hy] at hanswer h
      obtain rfl : e = e' := Except.error.inj hanswer
      exact .error h

/-! ## Operators that collect partitions -/

namespace ByPartition

variable {fs₀ : List (Frame σ)} {fields : List Nat} {s₀ : RowStore} {op op' : ByPartition σ}

/-- The operators differ in nothing but their frames, and these are twins of those that were built
as `fs₀`. -/
def Peers (fs₀ : List (Frame σ)) (fields : List Nat) (s₀ : RowStore) (op op' : ByPartition σ) :
    Prop :=
  ∃ last, op.Carries Frame.Twin fs₀ fields s₀ last ∧ op'.Carries Frame.Twin fs₀ fields s₀ last ∧
    op'.store = op.store

theorem agree_flush_of_peers (hfs : ∀ f ∈ fs₀, f.tally.Forgets) (sink : Sink ω) :
    Action.Agree (Action.Abreast (Peers fs₀ fields s₀) Eq) (Action.Abreast (Peers fs₀ fields s₀) Eq)
      (Action.Abreast (Peers fs₀ fields s₀) Eq) (flush sink) (flush sink) := by
  rintro ⟨op, out⟩ ⟨op', _⟩ ⟨⟨last, hop, hop', hstore⟩, rfl⟩
  dsimp only at hop hop' hstore
  obtain ⟨rows, hrows⟩ := hop.store.1
  -- frames that are twins offer the same for the rows that both stores hold
  obtain ⟨outs, result, -, -, hoffers⟩ := exists_flushOffers fs₀ rows
  have hflush := (hoffers ω sink op out hop.frames hrows).outcome_eq
  have hflush' := (hoffers ω sink op' out hop'.frames (hstore ▸ hrows)).outcome_eq
  obtain ⟨hanswer, hout⟩ := Prod.ext_iff.mp (hflush.trans hflush'.symm)
  obtain ⟨hcarries, -, hbehind⟩ := hop.flush (keepsFrames_twin hfs) sink out
  obtain ⟨hcarries', -, hbehind'⟩ := hop'.flush (keepsFrames_twin hfs) sink out
  refine .of_outcome hanswer ⟨⟨none, hcarries, hcarries', ?_⟩, hout⟩
  rw [hbehind, hbehind', hstore]

theorem agree_keepRow_of_peers (row : Row) :
    Action.Agree (Action.Abreast (Peers fs₀ fields s₀) (Eq (α := ω)))
      (Action.Abreast (Peers fs₀ fields s₀) Eq) (Action.Abreast (Peers fs₀ fields s₀) Eq)
      (keepRow row) (keepRow row) := by
  rintro ⟨op, out⟩ ⟨op', _⟩ ⟨⟨last, hop, hop', hstore⟩, rfl⟩
  dsimp only at hop hop' hstore
  have hcarries := hop.keepRow row out
  have hcarries' := hop'.keepRow row out
  cases happend : RowStore.append row op.store with
  | ok u s =>
    have hkeep := keepRow_of_ok happend out
    have hkeep' := keepRow_of_ok (hstore ▸ happend) out
    rw [Action.outcome_of_ok hkeep] at hcarries
    rw [Action.outcome_of_ok hkeep'] at hcarries'
    rw [hkeep, hkeep']
    exact .ok ⟨⟨some row, hcarries, hcarries', rfl⟩, rfl⟩
  | error e s =>
    have hkeep := keepRow_of_error happend out
    have hkeep' := keepRow_of_error (hstore ▸ happend) out
    rw [Action.outcome_of_error hkeep] at hcarries
    rw [Action.outcome_of_error hkeep'] at hcarries'
    rw [hkeep, hkeep']
    exact .error ⟨⟨some row, hcarries, hcarries', rfl⟩, rfl⟩

/-- **One more row.** Peers answer it alike and remain peers, whether they can keep it or not. -/
theorem agree_push_of_peers (hfs : ∀ f ∈ fs₀, f.tally.Forgets) (sink : Sink ω) (row : Row) :
    Action.Agree (Action.Abreast (Peers fs₀ fields s₀) Eq) (Action.Abreast (Peers fs₀ fields s₀) Eq)
      (Action.Abreast (Peers fs₀ fields s₀) Eq) (push sink row) (push sink row) := by
  refine .get ?_
  intro s t hst
  have hstarts : s.1.startsPartition row = t.1.startsPartition row := by
    obtain ⟨last, hop, hop', -⟩ := hst.1
    unfold startsPartition
    rw [hop.last, hop'.last, hop.partition, hop'.partition]
  rw [hstarts]
  refine .bind (.ofExcept _) ?_
  intro starts
  cases starts with
  | true => exact .bind (agree_flush_of_peers hfs sink) fun _ => agree_keepRow_of_peers row
  | false => exact agree_keepRow_of_peers row

/-! ### Between executions -/

/-- The operator holds nothing without a last row, and while it holds nothing its store is as it
was built. -/
structure Rests (fs₀ : List (Frame σ)) (fields : List Nat) (s₀ : RowStore) (op : ByPartition σ) :
    Prop where
  carries : op.Carries Frame.Twin fs₀ fields s₀ op.last
  isEmpty : op.last = none → op.store.isEmpty = true
  store : op.store.isEmpty = true → op.store = s₀

theorem preserves_rests_flush (hfs : ∀ f ∈ fs₀, f.tally.Forgets) (hs₀ : s₀.release = s₀)
    (sink : Sink ω) :
    Action.Preserves (fun s : ByPartition σ × ω => s.1.Rests fs₀ fields s₀) (flush sink) := by
  rintro ⟨op, out⟩ h
  dsimp only at h
  obtain ⟨hcarries, hrows, hbehind⟩ := h.carries.flush (keepsFrames_twin hfs) sink out
  constructor
  · rwa [hcarries.last]
  · intro _
    exact hrows.isEmpty_iff.mpr rfl
  · intro _
    rw [hbehind]
    by_cases hempty : op.store.isEmpty = true
    · rw [if_pos hempty, h.store hempty]
    · rw [if_neg hempty, hs₀]

theorem preserves_rests_keepRow {row : Row} (hfits : SpillFile.Fits row) :
    Action.Preserves (fun s : ByPartition σ × ω => s.1.Rests fs₀ fields s₀) (keepRow row) := by
  rintro ⟨op, out⟩ h
  dsimp only at h
  obtain ⟨rows, hrows⟩ := h.carries.store.1
  have hcarries := h.carries.keepRow row out
  have happended := hrows.append row
  cases happend : RowStore.append row op.store with
  | ok u s =>
    rw [happend] at happended
    rw [Action.outcome_of_ok (keepRow_of_ok happend out)] at hcarries ⊢
    refine ⟨hcarries, by simp, ?_⟩
    intro hempty
    have hnil := happended.1.isEmpty_iff.mp hempty
    simp at hnil
  | error e s =>
    -- the row fits, so the store has refused it untouched
    obtain rfl := RowStore.eq_of_append_error hfits happend
    rw [Action.outcome_of_error (keepRow_of_error happend out)] at hcarries ⊢
    exact ⟨hcarries, by simp, h.store⟩

theorem preserves_rests_push (hfs : ∀ f ∈ fs₀, f.tally.Forgets) (hs₀ : s₀.release = s₀)
    (sink : Sink ω) {row : Row} (hfits : SpillFile.Fits row) :
    Action.Preserves (fun s : ByPartition σ × ω => s.1.Rests fs₀ fields s₀) (push sink row) := by
  refine .get fun s _ => .bind (.ofExcept _) fun starts => ?_
  cases starts with
  | true =>
    exact .bind (preserves_rests_flush hfs hs₀ sink) fun _ => preserves_rests_keepRow hfits
  | false => exact preserves_rests_keepRow hfits

end ByPartition

/-! ## Operators that work row by row -/

namespace RowByRow

variable {fs₀ : List (Forward (CallTally σ))} {fields : List Nat}

/-- The frame is, once it is prepared, what `f₀` is then. -/
def PreparesAs (f₀ f : Forward (CallTally σ)) : Prop :=
  f₀.tally.PreparesAs f.tally ∧ f.currentRowOnly = f₀.currentRowOnly

/-- The frames are, once they are prepared, what `fs₀` are then. -/
structure Rests (fs₀ : List (Forward (CallTally σ))) (fields : List Nat) (op : RowByRow σ) :
    Prop where
  frames : List.Forall₂ PreparesAs fs₀ op.frames
  partition : op.partition = fields

theorem Rests.prepare {op : RowByRow σ} (h : op.Rests fs₀ fields)
    (hfs : ∀ f ∈ fs₀, f.tally.Forgets) : op.prepare.Rests fs₀ fields := by
  refine ⟨List.forall₂_map_right_iff.mpr ?_, h.partition⟩
  refine ((List.forall₂_and_left _ _).mpr ⟨hfs, h.frames⟩).imp fun f₀ f hf => ⟨?_, hf.2.2⟩
  have hkeeps := hf.1.keeps_preparesAs
  exact hkeeps.setWindowSize 0 _ (hkeeps.clear _ hf.2.1)

theorem preserves_rests_push (hfs : ∀ f ∈ fs₀, f.tally.Forgets) (sink : Sink ω) (row : Row) :
    Action.Preserves (fun s : RowByRow σ × ω => s.1.Rests fs₀ fields) (push sink row) := by
  have hprocess (f₀ : Forward (CallTally σ)) (hf₀ : f₀ ∈ fs₀) :
      Action.Preserves (PreparesAs f₀) (Forward.process row) :=
    Forward.preserves_process (hfs f₀ hf₀).keeps_preparesAs.toKeepsRows f₀.currentRowOnly row
  have hvalues : Action.Preserves (Rests fs₀ fields) (values row) := by
    intro op h
    obtain ⟨hframes, hpartition⟩ := preserves_values_of hprocess op ⟨h.frames, h.partition⟩
    exact ⟨hframes, hpartition⟩
  have hanswer : Action.Preserves (fun s : RowByRow σ × ω => s.1.Rests fs₀ fields)
      (answerRow sink row) :=
    preserves_answerRow hvalues (fun _ h => ⟨h.frames, h.partition⟩) sink
  refine .get fun s _ => .bind (.ofExcept _) fun starts => ?_
  cases starts with
  | true => exact .bind (.modify fun s hs => hs.prepare hfs) fun _ => hanswer
  | false => exact hanswer

/-- Without a last row, such operators mirror each other. -/
theorem Rests.mirrors {op op' : RowByRow σ} (h : op.Rests fs₀ fields) (h' : op'.Rests fs₀ fields)
    (hlast : op.last = none) (hlast' : op'.last = none) : op.Mirrors op' := by
  have hprepare {op : RowByRow σ} (h : op.Rests fs₀ fields) :
      op.frames.map (·.prepare 0) = fs₀.map (·.prepare 0) := by
    rw [← List.forall₂_eq_eq_eq, List.forall₂_map_left_iff, List.forall₂_map_right_iff]
    refine h.frames.flip.imp ?_
    intro f f₀ hf
    show Forward.mk _ f.currentRowOnly = Forward.mk _ f₀.currentRowOnly
    rw [hf.1 0, hf.2]
  refine ⟨?_, fun hne => absurd hlast hne⟩
  show RowByRow.mk _ op.partition op.last = RowByRow.mk _ op'.partition op'.last
  rw [hprepare h, hprepare h', h.partition, h'.partition, hlast, hlast']

end RowByRow

/-! ## Executions -/

namespace WindowOperator

/-- The row that arrived last, if the input has not ended behind it. -/
def last : WindowOperator σ → Option Row
  | rowByRow op => op.last
  | byPartition op => op.last

/-- What is left of an operator after some executions, whether they succeed or not. -/
def afterExecutions (inputs : List (List Row)) (op : WindowOperator σ) : WindowOperator σ :=
  inputs.foldl (fun op input => ((execute input).outcome op).2) op

/-- The operator is freshly built, over functions that forget all values in a reset. -/
def IsNew : WindowOperator σ → Prop
  | rowByRow op => (∀ f ∈ op.frames, f.tally.Forgets) ∧ op.last = none
  | byPartition op => (∀ f ∈ op.frames, f.tally.Forgets) ∧ op.last = none ∧
      op.store.release = op.store

/-- The operator was built as the first one, and has kept what a new execution needs. -/
inductive Rests : WindowOperator σ → WindowOperator σ → Prop where
  | rowByRow {op₀ op : RowByRow σ} (h : op.Rests op₀.frames op₀.partition) :
      Rests (rowByRow op₀) (rowByRow op)
  | byPartition {op₀ op : ByPartition σ} (h : op.Rests op₀.frames op₀.partition op₀.store) :
      Rests (byPartition op₀) (byPartition op)

variable {op₀ op : WindowOperator σ} {input : List Row}

theorem isNew_of_ofSpec {spec : WindowSpec} {types : List DataType} {options : Options}
    {canSpill : Bool} {registry : Registry σ} (hforgets : registry.Forgets)
    (h : ofSpec spec types options canSpill registry = .ok op) : op.IsNew := by
  obtain ⟨-, ⟨-, fs, hfs, rfl⟩ | ⟨-, fs, hfs, rfl⟩⟩ := ofSpec_eq_ok_iff.mp h
  · exact ⟨WindowSpec.forgets_of_ofGroup hforgets hfs, rfl, rfl⟩
  · refine ⟨?_, rfl⟩
    intro f hf
    obtain ⟨g, -, hg⟩ := Answer.exists_of_mem_mapM hfs hf
    obtain ⟨t, ht, hg⟩ := Answer.ok_of_bind_ok hg
    cases hg
    exact CallTally.forgets_of_ofCalls hforgets ht

theorem IsNew.rests (h : op.IsNew) : Rests op op := by
  cases op with
  | rowByRow op => exact .rowByRow ⟨List.forall₂_same.mpr fun f _ => ⟨fun _ => rfl, rfl⟩, rfl⟩
  | byPartition op =>
    have hstore : op.store.Holds [] := h.2.2 ▸ RowStore.holds_release op.store
    refine .byPartition ⟨⟨List.forall₂_same.mpr fun f _ => .refl f, rfl, ?_, rfl⟩, ?_, fun _ => rfl⟩
    · exact ⟨⟨[], hstore⟩, .refl op.store⟩
    · exact fun _ => hstore.isEmpty_iff.mpr rfl

/-! ### What executions keep -/

theorem preserves_rests_within {φ α : Type} {P : φ → Prop} {wrap : φ → WindowOperator σ}
    {x : Action (φ × ω) α} (hx : Action.Preserves (fun s : φ × ω => P s.1) x)
    (hwrap : ∀ op, P op → Rests op₀ (wrap op)) {op : φ} (hop : P op) :
    Action.Preserves (fun s : WindowOperator σ × ω => Rests op₀ s.1) (within op wrap x) :=
  hx.onPart (fun _ _ => hop) fun _ t _ ht => hwrap t.1 ht

theorem preserves_rests_push (hnew : op₀.IsNew) (sink : Sink ω) {row : Row}
    (hfits : SpillFile.Fits row) :
    Action.Preserves (fun s : WindowOperator σ × ω => Rests op₀ s.1) (push sink row) := by
  refine .get ?_
  rintro ⟨_, out⟩ h
  cases h with
  | rowByRow h =>
    exact preserves_rests_within (RowByRow.preserves_rests_push hnew.1 sink row)
      (fun _ => .rowByRow) h
  | byPartition h =>
    exact preserves_rests_within (ByPartition.preserves_rests_push hnew.1 hnew.2.2 sink hfits)
      (fun _ => .byPartition) h

theorem preserves_rests_finish (hnew : op₀.IsNew) (sink : Sink ω) :
    Action.Preserves (fun s : WindowOperator σ × ω => Rests op₀ s.1) (finish sink) := by
  refine .get ?_
  rintro ⟨_, out⟩ h
  cases h with
  | rowByRow h =>
    refine preserves_rests_within (.modify fun s hs => ?_) (fun _ => .rowByRow) h
    exact ⟨hs.frames, hs.partition⟩
  | byPartition h =>
    exact preserves_rests_within (ByPartition.preserves_rests_flush hnew.1 hnew.2.2 sink)
      (fun _ => .byPartition) h

theorem preserves_rests_execute (hnew : op₀.IsNew) (hfits : ∀ row ∈ input, SpillFile.Fits row) :
    Action.Preserves (Rests op₀) (execute input) := by
  have hrun : Action.Preserves (fun s : WindowOperator σ × List Row => Rests op₀ s.1)
      (run Sink.collect input) :=
    .bind (.forM fun row hrow => preserves_rests_push hnew Sink.collect (hfits row hrow)) fun _ =>
      preserves_rests_finish hnew Sink.collect
  intro op hop
  have hbehind := hrun (op, []) hop
  unfold Action.outcome at hbehind ⊢
  unfold execute
  cases hresult : run Sink.collect input (op, []) with
  | ok u s =>
    rw [hresult] at hbehind
    exact hbehind
  | error e s =>
    rw [hresult] at hbehind
    exact hbehind

/-- **Any executions**, whether they succeed or not. -/
theorem rests_afterExecutions (hnew : op₀.IsNew) {inputs : List (List Row)}
    (hfits : ∀ input ∈ inputs, ∀ row ∈ input, SpillFile.Fits row) (hop : Rests op₀ op) :
    Rests op₀ (afterExecutions inputs op) := by
  induction inputs generalizing op with
  | nil => exact hop
  | cons input inputs ih =>
    have hone := preserves_rests_execute hnew (hfits input List.mem_cons_self) op hop
    exact ih (fun input hinput => hfits input (List.mem_cons_of_mem _ hinput)) hone

/-! ### A new execution -/

/-- The end of the input leaves no last row, even where it fails. -/
theorem last_finish (hnew : op₀.IsNew) (hop : Rests op₀ op) (sink : Sink ω) (out : ω) :
    ((finish sink).outcome (op, out)).2.1.last = none := by
  cases hop with
  | rowByRow h => rfl
  | @byPartition op₀ op h =>
    have hdrives : Drives byPartition (ByPartition.finish sink)
        (finish sink : Action (WindowOperator σ × ω) Unit) := drives_within fun _ _ => rfl
    rw [hdrives.outcome_eq]
    exact (h.carries.flush (ByPartition.keepsFrames_twin hnew.1) sink out).1.last

/-- An execution that succeeds leaves no last row. -/
theorem last_of_execute_ok (hnew : op₀.IsNew) (hop : Rests op₀ op)
    (hfits : ∀ row ∈ input, SpillFile.Fits row) {out : List Row} {op' : WindowOperator σ}
    (h : execute input op = .ok out op') : op'.last = none := by
  obtain ⟨out', hrun⟩ := exists_of_execute h
  obtain ⟨⟨⟩, s, hpush, hfinish⟩ := Action.ok_of_bind_ok hrun
  have hpreserves : Action.Preserves (fun s : WindowOperator σ × List Row => Rests op₀ s.1)
      (input.forM (push Sink.collect)) :=
    .forM fun row hrow => preserves_rests_push hnew Sink.collect (hfits row hrow)
  have hs : Rests op₀ s.1 := hpreserves.of_ok hop hpush
  have hlast := last_finish hnew hs Sink.collect s.2
  rw [Action.outcome_of_ok hfinish] at hlast
  exact hlast

/-- Without a last row, the next execution is as good as the first. -/
theorem execute_eq_of_rests (hnew : op₀.IsNew) (hop : Rests op₀ op) (hlast : op.last = none)
    (input : List Row) : ((execute input).outcome op).1 = ((execute input).outcome op₀).1 := by
  have hnewRests := hnew.rests
  cases hop with
  | @rowByRow op₀ op h =>
    cases hnewRests with
    | rowByRow h₀ =>
      -- no operator that collects partitions takes part
      have hagree := agree_execute_of (σ := σ) (B := fun _ _ => False) input
        (fun _ _ _ _ h => h.1.elim) fun _ _ h => h.1.elim
      exact hagree.fst_outcome (.rowByRow (h.mirrors h₀ hlast hnew.2))
  | @byPartition op₀ op h =>
    cases hnewRests with
    | byPartition h₀ =>
      have hagree := agree_execute_of (B := ByPartition.Peers op₀.frames op₀.partition op₀.store)
        input (fun row _ => ByPartition.agree_push_of_peers hnew.1 Sink.collect row)
        (ByPartition.agree_flush_of_peers hnew.1 Sink.collect)
      refine hagree.fst_outcome (.byPartition ⟨none, ?_, ?_, ?_⟩)
      · exact hlast ▸ h.carries
      · exact hnew.2.1 ▸ h₀.carries
      · rw [h.store (h.isEmpty hlast)]

/-- **Executions one after the other**, of any inputs whose rows fit into records and whether they
succeed or not. When they leave no last row behind, the next execution, whatever its input, gives
the same rows or the same error as that of the operator as it was built. An execution that succeeds
leaves no last row, whatever came before it. -/
theorem execute_afterExecutions {spec : WindowSpec} {types : List DataType} {options : Options}
    {canSpill : Bool} {registry : Registry σ} (hforgets : registry.Forgets)
    (hop : ofSpec spec types options canSpill registry = .ok op₀) {earlier : List (List Row)}
    (hfits : ∀ input ∈ earlier, ∀ row ∈ input, SpillFile.Fits row) :
    ((afterExecutions earlier op₀).last = none → ∀ input,
      ((execute input).outcome (afterExecutions earlier op₀)).1 =
        ((execute input).outcome op₀).1) ∧
    ∀ input, (∀ row ∈ input, SpillFile.Fits row) → ∀ out op,
      execute input (afterExecutions earlier op₀) = .ok out op → op.last = none := by
  have hnew := isNew_of_ofSpec hforgets hop
  have hrests := rests_afterExecutions hnew hfits hnew.rests
  constructor
  · exact fun hlast input => execute_eq_of_rests hnew hrests hlast input
  · exact fun input hinput out op h => last_of_execute_ok hnew hrests hinput h

/-- `COUNT(*)` in partitions by `$0`. -/
def countInPartition : WindowSpec where
  groups := [{ partition := [0], calls := [.countRows] }]

/-- An execution that fails, as there is no room for its second row, and one that succeeds. The next
one is as good as the first. -/
theorem execute_after_failure_and_success :
    ∃ op₀ : WindowOperator Empty, ofSpec countInPartition [.integer, .text] { memory := 150 } false
        Registry.builtin = .ok op₀ ∧
      ((execute [[.integer 1, .text "a"], [.integer 1, .text "abcdefgh"]]).outcome op₀).1 =
        .error (RowStore.spillUnavailable { memory := 150 }) ∧
      ((execute [[.integer 1, .text "a"]]).outcome (afterExecutions
          [[[.integer 1, .text "a"], [.integer 1, .text "abcdefgh"]], [[.integer 2, .text "b"]]]
          op₀)).1 =
        ((execute [[.integer 1, .text "a"]]).outcome op₀).1 := by
  have hop : ofSpec countInPartition [.integer, .text] { memory := 150 } false
      (Registry.builtin : Registry Empty) = .ok _ := rfl
  refine ⟨_, hop, by decide +kernel, ?_⟩
  exact (execute_afterExecutions Registry.forgets_builtin hop (by decide)).1 (by decide +kernel) _

/-- **An execution that fails leaves rows behind.** There is no room for the second row of an input,
and the first one is held back. It comes out with the next execution, counted together with the one
row of that input; from the operator as it was built this row comes out alone. -/
theorem execute_after_failure :
    ∃ op₀ : WindowOperator Empty, ofSpec countInPartition [.integer, .text] { memory := 150 } false
        Registry.builtin = .ok op₀ ∧
      ((execute [[.integer 1, .text "a"], [.integer 1, .text "abcdefgh"]]).outcome op₀).1 =
        .error (RowStore.spillUnavailable { memory := 150 }) ∧
      ((execute [[.integer 1, .text "a"]]).outcome (afterExecutions
          [[[.integer 1, .text "a"], [.integer 1, .text "abcdefgh"]]] op₀)).1 =
        .ok [[.integer 1, .text "a", .integer 2], [.integer 1, .text "a", .integer 2]] ∧
      ((execute [[.integer 1, .text "a"]]).outcome op₀).1 =
        .ok [[.integer 1, .text "a", .integer 1]] :=
  ⟨_, rfl, by decide +kernel, by decide +kernel, by decide +kernel⟩

end WindowOperator

end SqlWindow
