import SqlWindow.Proofs.Operator.Collects
import SqlWindow.Proofs.Operator.Execute
import SqlWindow.Proofs.Operator.Offers

set_option autoImplicit false

/-! # Which rows come out

An operator that collects partitions takes rows in one by one and gives them out in batches. Errors
may strike at any step: a sink refuses a row, a file cannot be created, an expression has no value.
Through all of this every row that was taken in is accounted for: it is held, or it is one of a
batch that was to be answered. Batches are answered in the order in which their rows were taken in,
each as a fresh operator answers its rows alone, up to the error that ends the step, if there is
one.
-/

namespace SqlWindow

variable {σ ω : Type}

/-! ## What a receiver takes of an offer -/

/-- The sink that has room for some rows and refuses those behind them. -/
def Sink.upTo (room : Nat) : Sink (List Row) where
  emit row := fun out =>
    if out.length < room then .ok () (row :: out) else .error (.internal "no room") out

/-- The log of an offer is the list as far as it was taken, and perhaps one row that was refused. -/
theorem Sink.exists_log_offer (sink : Sink ω) (result : Except Error Unit) (outs : List Row) (w : ω)
    (log : List (Row × Bool)) : ∃ offers,
      ((sink.logged.offer result outs).outcome (w, log)).2.2 = log ++ offers ∧
      offers.map Prod.fst <+: outs ∧ (∀ offer ∈ offers.dropLast, offer.2 = true) ∧
      (((sink.logged.offer result outs).outcome (w, log)).1 = .ok () →
        offers = outs.map (·, true) ∧ result = .ok ()) := by
  induction outs generalizing w log with
  | nil =>
    refine ⟨[], ?_, List.prefix_refl _, by simp, ?_⟩
    · cases result <;> exact (List.append_nil log).symm
    · intro h
      cases result with
      | ok u => exact ⟨rfl, rfl⟩
      | error e => cases h
  | cons row outs ih =>
    cases hrow : sink.emit row w with
    | ok u w' =>
      have hlogged : sink.logged.emit row (w, log) = .ok () (w', log ++ [(row, true)]) := by
        simp only [Sink.logged, hrow]
      have hoffer : (sink.logged.offer result (row :: outs)).outcome (w, log) =
          (sink.logged.offer result outs).outcome (w', log ++ [(row, true)]) := by
        unfold Action.outcome
        rw [Sink.offer, Action.bind_of_ok hlogged]
      obtain ⟨offers, hlog, hprefix, htaken, hok⟩ := ih w' (log ++ [(row, true)])
      rw [hoffer]
      refine ⟨(row, true) :: offers, ?_, ?_, ?_, ?_⟩
      · simp [hlog]
      · simpa using hprefix
      · intro offer hoffer
        cases offers with
        | nil => cases hoffer
        | cons next offers =>
          rw [List.dropLast_cons_cons] at hoffer
          rcases List.mem_cons.mp hoffer with rfl | hoffer
          · rfl
          · exact htaken offer hoffer
      · intro h
        obtain ⟨rfl, hresult⟩ := hok h
        exact ⟨rfl, hresult⟩
    | error e w' =>
      have hlogged : sink.logged.emit row (w, log) = .error e (w', log ++ [(row, false)]) := by
        simp only [Sink.logged, hrow]
      have hoffer : (sink.logged.offer result (row :: outs)).outcome (w, log) =
          (.error e, w', log ++ [(row, false)]) := by
        unfold Action.outcome
        rw [Sink.offer, Action.bind_of_error hlogged]
      rw [hoffer]
      refine ⟨[(row, false)], rfl, ⟨outs, rfl⟩, by simp, ?_⟩
      intro h
      cases h

/-! ## Records -/

namespace Record

/-- The row that the step took in. -/
def accepted (record : Record) : Option Row := record.step.accepted record.answer

theorem filterMap_accepted_cons (record : Record) (records : List Record) :
    (record :: records).filterMap accepted =
      record.accepted.toList ++ records.filterMap accepted := by
  rw [List.filterMap_cons]
  cases record.accepted <;> rfl

/-- The rows that the receiver took. -/
def emitted (record : Record) : List Row := (record.offers.filter (·.2)).map (·.1)

/-- In the step the rows of the batch were answered, or as many as came before an error; what was
computed for them is a row for each, which it extends. -/
structure Answers (batch computed : List Row) (record : Record) : Prop where
  /-- Computed rows belong to rows of the batch, in their order. -/
  extend : List.Forall₂ (· <+: ·) (batch.take computed.length) computed
  /-- The computed rows are offered, in their order. -/
  offered : record.offers.map Prod.fst <+: computed
  /-- Behind a row that is refused none is offered. -/
  taken : ∀ offer ∈ record.offers.dropLast, offer.2 = true
  /-- A step that succeeds has answered the whole batch, and every row was taken. -/
  complete : record.answer = .ok () →
    record.offers = computed.map (·, true) ∧ computed.length = batch.length

variable {batch computed : List Row} {record : Record}

theorem Answers.nil (h : record.offers = []) : record.Answers [] [] := by
  constructor <;> simp [h]

/-- What the receiver took are the first of the computed rows. -/
theorem Answers.emitted_prefix (h : record.Answers batch computed) :
    record.emitted <+: computed := by
  have hoffered := h.offered
  have htaken := h.taken
  unfold emitted
  rcases List.eq_nil_or_concat record.offers with hnil | ⟨offers, offer, hconcat⟩
  · rw [hnil]
    exact List.nil_prefix
  · rw [hconcat, List.concat_eq_append] at hoffered htaken ⊢
    rw [List.dropLast_concat] at htaken
    rw [List.filter_append, List.filter_eq_self.mpr htaken]
    refine List.IsPrefix.trans ?_ hoffered
    rw [List.map_append, List.map_append]
    refine (List.prefix_append_right_inj _).mpr ?_
    cases hoffer : offer.2 <;> simp [hoffer]

/-- What the receiver took extends rows of the batch, in their order. -/
theorem Answers.exists_sublist (h : record.Answers batch computed) :
    ∃ rows, rows.Sublist batch ∧ List.Forall₂ (· <+: ·) rows record.emitted := by
  obtain ⟨rest, hrest⟩ := h.emitted_prefix
  have hextend := h.extend
  rw [← hrest] at hextend
  have htake := List.forall₂_take_append _ _ _ hextend
  exact ⟨_, (List.take_sublist _ _).trans (List.take_sublist _ _), htake⟩

end Record

/-- What is offered for a run answers it, when the step fails whenever the offer does. -/
theorem Offers.answers {φ : Type} {sink : Sink ω} {run outs : List Row}
    {result answer : Except Error Unit} {x : Action (φ × ω × List (Row × Bool)) Unit} {op : φ}
    {w : ω} (h : Offers sink.logged outs result x (op, w, []))
    (hextend : List.Forall₂ (· <+: ·) (run.take outs.length) outs)
    (hlength : result = .ok () → outs.length = run.length) (step : Step)
    (hanswer : answer = .ok () → (x.outcome (op, w, [])).1 = .ok ()) :
    (Record.mk step answer (x.outcome (op, w, [])).2.2.2).Answers run outs := by
  obtain ⟨offers, hlog, hprefix, htaken, hok⟩ := sink.exists_log_offer result outs w []
  have houtcome := h.outcome_eq
  rw [← houtcome] at hlog hok
  have hoffers : (x.outcome (op, w, [])).2.2.2 = offers := hlog
  rw [hoffers]
  refine ⟨hextend, hprefix, htaken, ?_⟩
  intro h
  obtain ⟨hall, hresult⟩ := hok (hanswer h)
  exact ⟨hall, hlength hresult⟩

namespace WindowOperator

/-! ## Operators -/

/-- The rows that the operator gives for an input to a receiver that takes them all. -/
def outputOf (op : WindowOperator σ) (input : List Row) : List Row :=
  ((run Sink.collect input).outcome (op, [])).2.2.reverse

/-! ### A fresh operator -/

/-- An operator that has room for the rows of one partition gives what their flush offers. -/
theorem outputOf_eq {fs₀ : List (Frame σ)} {fields : List Nat} {rows outs : List Row}
    {result : Except Error Unit} {s : RowStore} (hspill : s.spill = none) (hempty : s.rows = #[])
    (hroom : s.memoryUsed + Row.totalSize rows ≤ s.options.memory)
    (hrows : rows.Pairwise fun a b => Row.samePartition fields a b = .ok true)
    (hoffers : ByPartition.FlushOffers fs₀ rows outs result) :
    (byPartition { frames := fs₀, partition := fields, store := s }).outputOf rows = outs := by
  obtain ⟨op', hforM, hframes, hholds⟩ := @ByPartition.exists_forM_push _ _
    { frames := fs₀, partition := fields, store := s } rows hspill hroom (by simp) hrows
    Sink.collect []
  have htwins : List.Forall₂ Frame.Twin fs₀ op'.frames := by
    rw [hframes]
    exact List.forall₂_same.mpr fun f _ => .refl f
  have hheld : op'.store.Holds rows := by
    rwa [hempty] at hholds
  have hrun := drives_run_byPartition Sink.collect rows
    { frames := fs₀, partition := fields, store := s } []
  rw [Action.bind_of_ok hforM] at hrun
  have hout : ((run Sink.collect rows).outcome
      (byPartition { frames := fs₀, partition := fields, store := s }, [])).2.2 =
      ((ByPartition.flush Sink.collect).outcome (op', [])).2.2 := by
    unfold Action.outcome
    rw [hrun]
    unfold ByPartition.finish
    cases ByPartition.flush Sink.collect (op', []) <;> rfl
  calc
    _ = ((ByPartition.flush Sink.collect).outcome (op', [])).2.2.reverse :=
      congrArg List.reverse hout
    _ = ((Sink.collect.offer result outs).outcome []).2.reverse :=
      congrArg (·.2.reverse) (hoffers _ Sink.collect op' [] htwins hheld).outcome_eq
    _ = outs := by
      simp [Sink.outcome_offer_collect]

section

variable {spec : WindowSpec} {types : List DataType} {registry : Registry σ}
  {fs : List (List (Frame σ))}

/-- The operator is freshly built, and has room in memory for these rows. -/
def IsFreshFor (spec : WindowSpec) (types : List DataType) (registry : Registry σ)
    (rows : List Row) (op : WindowOperator σ) : Prop :=
  ∃ options canSpill, ofSpec spec types options canSpill registry = .ok op ∧
    Row.totalSize rows ≤ options.memory

theorem IsFreshFor.outputOf_eq {rows outs : List Row} {result : Except Error Unit}
    {fresh : WindowOperator σ} (h : IsFreshFor spec types registry rows fresh)
    (hfs : spec.groups.mapM (Frame.ofGroup · registry) = .ok fs)
    (hneeds : spec.needsBuffering registry = true)
    (hrows : rows.Pairwise fun a b => Row.samePartition spec.partition a b = .ok true)
    (hoffers : ByPartition.FlushOffers fs.flatten rows outs result) :
    fresh.outputOf rows = outs := by
  obtain ⟨options, canSpill, hop, hroom⟩ := h
  obtain ⟨-, ⟨-, fs', hfs', rfl⟩ | ⟨hneeds', -⟩⟩ := ofSpec_eq_ok_iff.mp hop
  · obtain rfl : fs = fs' := Except.ok.inj (hfs.symm.trans hfs')
    exact WindowOperator.outputOf_eq rfl rfl (by simpa using hroom) hrows hoffers
  · rw [hneeds] at hneeds'
    cases hneeds'

end

/-! ## Histories -/

section

variable {spec : WindowSpec} {types : List DataType} {registry : Registry σ}

/-- The batch of each step, which is empty for most, and accounts for all rows that were taken
in. -/
structure IsHistory (spec : WindowSpec) (types : List DataType) (registry : Registry σ)
    (sink : Sink ω) (steps : List Step) (s : WindowOperator σ × ω) (batches : List (List Row)) :
    Prop where
  /-- In each step the batch is answered, as a fresh operator answers it alone. -/
  answers : List.Forall₂ (fun batch record => ∀ fresh, IsFreshFor spec types registry batch fresh →
    record.Answers batch (fresh.outputOf batch)) batches (records sink steps s)
  /-- At each time the rows taken in are those of the batches so far and those that are held; and
  the next batch is all that is held, or nothing. -/
  accounts : ∀ k ≤ steps.length, ∃ held, (after sink (steps.take k) s).1.Holds held ∧
    ((records sink steps s).take k).filterMap Record.accepted = (batches.take k).flatten ++ held ∧
    ∀ batch ∈ batches[k]?, batch = [] ∨ batch = held

variable {fs : List (List (Frame σ))} {s₀ : RowStore} {held : List Row} {op : ByPartition σ}

/-- A step of an operator that collects partitions, as a step of an operator. -/
theorem exists_advances (hfs : ∀ f ∈ fs.flatten, f.tally.Forgets)
    (hfields : ∀ index ∈ spec.partition, ∃ type, fieldType types index = .ok type)
    (h : ByPartition.Collects types fs.flatten spec.partition s₀ held op) (sink : Sink ω)
    {step : Step} (hstep : ∀ row ∈ step.row?, Row.Conforms row types) (w : ω) :
    ∃ r, ByPartition.Advances types fs.flatten spec.partition s₀ sink held op w step r ∧
      (perform sink step).outcome (byPartition op, w) = (r.1, byPartition r.2.1, r.2.2) := by
  cases step with
  | push row =>
    refine ⟨_, h.push hfs hfields (hstep row rfl) sink w, ?_⟩
    exact Drives.outcome_eq (drives_within fun _ _ => rfl) op w
  | finish =>
    refine ⟨_, h.finish hfs sink w, ?_⟩
    exact Drives.outcome_eq (drives_within fun _ _ => rfl) op w

/-- **One step** answers a batch, which is all that is held or nothing. -/
theorem exists_observe (hfs : spec.groups.mapM (Frame.ofGroup · registry) = .ok fs)
    (hforgets : registry.Forgets) (hneeds : spec.needsBuffering registry = true)
    (hfields : ∀ index ∈ spec.partition, ∃ type, fieldType types index = .ok type)
    (h : ByPartition.Collects types fs.flatten spec.partition s₀ held op) (sink : Sink ω)
    {step : Step} (hstep : ∀ row ∈ step.row?, Row.Conforms row types) (w : ω) :
    ∃ batch held' op',
      (∀ fresh, IsFreshFor spec types registry batch fresh →
        (observe sink step (byPartition op, w)).1.Answers batch (fresh.outputOf batch)) ∧
      (batch = [] ∨ batch = held) ∧
      held ++ (observe sink step (byPartition op, w)).1.accepted.toList = batch ++ held' ∧
      (observe sink step (byPartition op, w)).2.1 = byPartition op' ∧
      ByPartition.Collects types fs.flatten spec.partition s₀ held' op' := by
  have hall : ∀ f ∈ fs.flatten, f.tally.Forgets := WindowSpec.forgets_of_ofGroup hforgets hfs
  obtain ⟨r, hadvances, hr⟩ := exists_advances hall hfields h sink.logged hstep (w, [])
  have hrecord : (observe sink step (byPartition op, w)).1 = ⟨step, r.1, r.2.2.2⟩ := by
    unfold observe
    rw [hr]
  have hbehind : (observe sink step (byPartition op, w)).2.1 = byPartition r.2.1 := by
    unfold observe
    rw [hr]
  rw [hrecord, hbehind]
  cases hadvances with
  | @keeps answer op' h' =>
    -- the batch is empty, and so is what a fresh operator gives for it
    obtain ⟨outs, result, hextend, -, hoffers⟩ :=
      ByPartition.exists_flushOffers fs.flatten ([] : List Row)
    refine ⟨[], _, op', ?_, .inl rfl, rfl, rfl, h'⟩
    intro fresh hfresh
    rw [List.take_nil, List.forall₂_nil_left_iff] at hextend
    rw [hfresh.outputOf_eq hfs hneeds .nil hoffers, hextend]
    exact .nil rfl
  | @flushes answer op' out' h' hout hanswer =>
    obtain ⟨outs, result, hextend, hlength, hoffers⟩ :=
      ByPartition.exists_flushOffers fs.flatten held
    refine ⟨held, _, op', ?_, .inr rfl, rfl, rfl, h'⟩
    intro fresh hfresh
    rw [hfresh.outputOf_eq hfs hneeds (h.pairwise hfields) hoffers, ← hout]
    have hflush := hoffers _ sink.logged op (w, []) h.carries.frames h.rows
    exact hflush.answers hextend hlength step hanswer

/-- **Any steps** from where some rows are held. -/
theorem exists_batches (hfs : spec.groups.mapM (Frame.ofGroup · registry) = .ok fs)
    (hforgets : registry.Forgets) (hneeds : spec.needsBuffering registry = true)
    (hfields : ∀ index ∈ spec.partition, ∃ type, fieldType types index = .ok type)
    (sink : Sink ω) {steps : List Step}
    (hsteps : ∀ step ∈ steps, ∀ row ∈ step.row?, Row.Conforms row types)
    (h : ByPartition.Collects types fs.flatten spec.partition s₀ held op) (w : ω) :
    ∃ batches : List (List Row),
      List.Forall₂ (fun batch record => ∀ fresh, IsFreshFor spec types registry batch fresh →
        record.Answers batch (fresh.outputOf batch)) batches
        (records sink steps (byPartition op, w)) ∧
      ∀ k ≤ steps.length, ∃ held',
        (after sink (steps.take k) (byPartition op, w)).1.Holds held' ∧
        held ++ ((records sink steps (byPartition op, w)).take k).filterMap Record.accepted =
          (batches.take k).flatten ++ held' ∧
        ∀ batch ∈ batches[k]?, batch = [] ∨ batch = held' := by
  induction steps generalizing held op w with
  | nil =>
    refine ⟨[], .nil, ?_⟩
    intro k _
    refine ⟨held, ?_, ?_, ?_⟩
    · rw [List.take_nil]
      exact h.rows
    · simp [records]
    · simp
  | cons step steps ih =>
    obtain ⟨batch, held', op', hanswers, hbatch, haccepted, hop', h'⟩ :=
      exists_observe hfs hforgets hneeds hfields h sink (hsteps step List.mem_cons_self) w
    have hsteps' : ∀ s ∈ steps, ∀ row ∈ s.row?, Row.Conforms row types := by
      intro s hs
      exact hsteps s (List.mem_cons_of_mem step hs)
    obtain ⟨batches, hrest, haccounts⟩ := ih hsteps' h' (observe sink step (byPartition op, w)).2.2
    have hbehind : (observe sink step (byPartition op, w)).2 =
        (byPartition op', (observe sink step (byPartition op, w)).2.2) := Prod.ext hop' rfl
    refine ⟨batch :: batches, ?_, ?_⟩
    · rw [records, hbehind]
      exact .cons hanswers hrest
    · intro k hk
      cases k with
      | zero =>
        refine ⟨held, h.rows, List.append_nil held, ?_⟩
        rintro _ ⟨⟩
        exact hbatch
      | succ k =>
        obtain ⟨held'', hholds, hsum, hnext⟩ := haccounts k (Nat.le_of_succ_le_succ hk)
        refine ⟨held'', ?_, ?_, hnext⟩
        · rw [List.take_succ_cons, after, hbehind]
          exact hholds
        · rw [records, List.take_succ_cons, Record.filterMap_accepted_cons, hbehind]
          calc
            _ = batch ++ (held' ++ ((records sink steps (byPartition op', _)).take k).filterMap
                Record.accepted) := by
              rw [← List.append_assoc, haccepted, List.append_assoc]
            _ = ((batch :: batches).take (k + 1)).flatten ++ held'' := by
              rw [hsum, List.take_succ_cons, List.flatten_cons, List.append_assoc]

/-- What the receiver took extends rows that were taken in, one by one and in their order. -/
theorem IsHistory.exists_sublist {sink : Sink ω} {steps : List Step}
    {s : WindowOperator σ × ω} {batches : List (List Row)}
    (h : IsHistory spec types registry sink steps s batches)
    (hfresh : ∀ batch, ∃ fresh, IsFreshFor spec types registry batch fresh) :
    ∃ rows, rows.Sublist ((records sink steps s).filterMap Record.accepted) ∧
      List.Forall₂ (· <+: ·) rows ((records sink steps s).flatMap Record.emitted) := by
  have hbatches {batches : List (List Row)} {records : List Record}
      (h : List.Forall₂ (fun batch record => ∀ fresh, IsFreshFor spec types registry batch fresh →
        record.Answers batch (fresh.outputOf batch)) batches records) :
      ∃ rows, rows.Sublist batches.flatten ∧
        List.Forall₂ (· <+: ·) rows (records.flatMap Record.emitted) := by
    induction h with
    | nil => exact ⟨[], .refl _, .nil⟩
    | @cons batch record batches records hone _ ih =>
      obtain ⟨fresh, hop⟩ := hfresh batch
      obtain ⟨rows, hsub, hrows⟩ := (hone fresh hop).exists_sublist
      obtain ⟨rows', hsub', hrows'⟩ := ih
      exact ⟨rows ++ rows', hsub.append hsub', List.rel_append hrows hrows'⟩
  obtain ⟨rows, hsub, hrows⟩ := hbatches h.answers
  obtain ⟨held, -, hall, -⟩ := h.accounts steps.length (Nat.le_refl _)
  refine ⟨rows, hsub.trans ?_, hrows⟩
  have hlength : (records sink steps s).length = steps.length := length_records sink steps s
  rw [← hlength, List.take_length, ← h.answers.length_eq, List.take_length] at hall
  rw [hall]
  exact List.sublist_append_left _ _

end

/-- **Which rows come out.** An operator that collects partitions, over functions that keep the
promise of a reset, is fed conforming rows, and its input ends, in any steps and whether these
succeed or not; spill files can be created or not, and the sink may refuse what it likes. Then
every row that was taken in is held or was one of a batch to be answered. The batches come in the
order in which their rows were taken in. Each is answered as a fresh operator answers it alone that
keeps it in memory, and as a whole unless the step fails. So what the sink takes extends rows that
were taken in, one by one and in their order. -/
theorem exists_history {spec : WindowSpec} {types : List DataType} {options : Options}
    {canSpill : Bool} {registry : Registry σ} {op : WindowOperator σ}
    (hforgets : registry.Forgets) (hop : ofSpec spec types options canSpill registry = .ok op)
    (hbuffered : op.isBuffered = true) {steps : List Step}
    (hsteps : ∀ step ∈ steps, ∀ row ∈ step.row?, Row.Conforms row types) (sink : Sink ω) (w : ω) :
    ∃ batches, IsHistory spec types registry sink steps (op, w) batches ∧
      ∃ rows, rows.Sublist ((records sink steps (op, w)).filterMap Record.accepted) ∧
        List.Forall₂ (· <+: ·) rows ((records sink steps (op, w)).flatMap Record.emitted) := by
  have hfresh (batch : List Row) : ∃ fresh, IsFreshFor spec types registry batch fresh := by
    obtain ⟨fresh, h⟩ := exists_ofSpec_of_ofSpec hop { memory := Row.totalSize batch } true
    exact ⟨fresh, _, _, h, Nat.le_refl _⟩
  obtain ⟨hcheck, ⟨hneeds, fs, hfs, rfl⟩ | ⟨-, fs, -, rfl⟩⟩ := ofSpec_eq_ok_iff.mp hop
  · have hfields := WindowSpec.exists_fieldType_of_check hcheck
    have hempty : RowStore.Holds { options, canSpill } [] := RowStore.holds_of_spill_eq_none rfl rfl
    have hstart : ByPartition.Collects types fs.flatten spec.partition { options, canSpill } []
        { frames := fs.flatten, partition := spec.partition, store := { options, canSpill } } := by
      refine ⟨⟨?_, rfl, ⟨⟨[], hempty⟩, .refl _⟩, rfl⟩, hempty, by simp, by simp, by simp⟩
      exact List.forall₂_same.mpr fun f _ => .refl f
    obtain ⟨batches, hanswers, haccounts⟩ :=
      exists_batches hfs hforgets hneeds hfields sink hsteps hstart w
    have hhistory : IsHistory spec types registry sink steps _ batches := ⟨hanswers, haccounts⟩
    exact ⟨batches, hhistory, hhistory.exists_sublist hfresh⟩
  · cases hbuffered

/-- Room for two rows and no file: the store refuses the third row of a partition, and the sink
refuses the second row it is offered, so that the fourth is not taken in either. -/
theorem exists_history_of_refusals :
    ∃ op : WindowOperator Empty, ofSpec nextInPartition [.integer, .integer] { memory := 144 } false
        Registry.builtin = .ok op ∧ op.isBuffered = true ∧
      ∃ steps, steps = [Step.push [.integer 1, .integer 5], .push [.integer 1, .integer 6],
          .push [.integer 1, .integer 7], .push [.integer 2, .integer 3],
          .push [.integer 2, .integer 4], .finish] ∧
        (records (Sink.upTo 1) steps (op, [])).filterMap Record.accepted =
          [[.integer 1, .integer 5], [.integer 1, .integer 6], [.integer 2, .integer 4]] ∧
        (records (Sink.upTo 1) steps (op, [])).flatMap Record.emitted =
          [[.integer 1, .integer 5, .integer 6]] ∧
        ∃ batches, IsHistory nextInPartition [.integer, .integer] Registry.builtin (Sink.upTo 1)
            steps (op, []) batches ∧
          ∃ rows, rows.Sublist ((records (Sink.upTo 1) steps (op, [])).filterMap Record.accepted) ∧
            List.Forall₂ (· <+: ·) rows
              ((records (Sink.upTo 1) steps (op, [])).flatMap Record.emitted) := by
  refine ⟨_, rfl, rfl, _, rfl, by decide +kernel, by decide +kernel, ?_⟩
  exact exists_history Registry.forgets_builtin rfl rfl (by decide) (Sink.upTo 1) []

end WindowOperator

end SqlWindow
