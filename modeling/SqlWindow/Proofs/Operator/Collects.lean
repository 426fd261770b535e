import SqlWindow.Proofs.Operator.Steps
import SqlWindow.Proofs.Row.Partition
import SqlWindow.Proofs.Row.Size

set_option autoImplicit false

/-! # What is held

An operator that collects partitions holds rows of one partition. Each step either leaves them where
they are, with perhaps one more behind them, or flushes them all. This is so whether steps succeed
or not; the row that arrived last may well be one that the store has refused, and it still tells
which rows are of the partition that is open.
-/

namespace SqlWindow

variable {σ ω : Type}

/-- The row that a step takes in when this is its answer. -/
def Step.accepted (step : Step) (answer : Except Error Unit) : Option Row :=
  match answer with
  | .ok () => step.row?
  | .error _ => none

namespace ByPartition

variable {types : List DataType} {fs₀ : List (Frame σ)} {fields : List Nat} {s₀ : RowStore}
  {held : List Row} {op : ByPartition σ} {row : Row}

/-! ## Steps -/

/-- The operator holds these rows, which conform to the types and are of one partition with the
row that arrived last. That row need not be held itself: its store may have refused it. -/
structure Collects (types : List DataType) (fs₀ : List (Frame σ)) (fields : List Nat)
    (s₀ : RowStore) (held : List Row) (op : ByPartition σ) : Prop where
  carries : op.Carries Frame.Twin fs₀ fields s₀ op.last
  rows : op.store.Holds held
  conforms : ∀ row ∈ held, Row.Conforms row types
  last : ∀ last ∈ op.last, Row.Conforms last types
  joined : ∀ row ∈ held, ∃ last ∈ op.last, Row.samePartition fields row last = .ok true

/-- All rows that are held are of one partition. -/
theorem Collects.pairwise (h : Collects types fs₀ fields s₀ held op)
    (hfields : ∀ index ∈ fields, ∃ type, fieldType types index = .ok type) :
    held.Pairwise fun a b => Row.samePartition fields a b = .ok true := by
  apply List.pairwise_of_forall_mem_list
  intro a ha b hb
  obtain ⟨last, hlast, halast⟩ := h.joined a ha
  obtain ⟨last', hlast', hblast⟩ := h.joined b hb
  obtain rfl : last = last' := Option.mem_unique hlast hlast'
  exact (h.conforms a ha).samePartition_trans (h.last last hlast) (h.conforms b hb) hfields halast
    (Row.samePartition_symm hblast)

/-- A row is kept behind those of its partition, or not at all. The receiver sees nothing of it. -/
theorem Collects.keepRow (h : Collects types fs₀ fields s₀ held op)
    (hfields : ∀ index ∈ fields, ∃ type, fieldType types index = .ok type)
    (hrow : Row.Conforms row types)
    (hjoins : ∀ other ∈ held, Row.samePartition fields other row = .ok true) (out : ω) :
    ∃ answer op', (ByPartition.keepRow row).outcome (op, out) = (answer, op', out) ∧
      Collects types fs₀ fields s₀ (held ++ ((Step.push row).accepted answer).toList) op' := by
  have hcarries := h.carries.keepRow row out
  have happended := h.rows.append row
  have hlast : ∀ last ∈ some row, Row.Conforms last types := by simpa using hrow
  have hjoined : ∀ other ∈ held, ∃ last ∈ some row,
      Row.samePartition fields other last = .ok true := by
    intro other hother
    exact ⟨row, rfl, hjoins other hother⟩
  cases happend : RowStore.append row op.store with
  | ok u s =>
    rw [happend] at happended
    rw [Action.outcome_of_ok (keepRow_of_ok happend out)] at hcarries ⊢
    refine ⟨_, _, rfl, hcarries, happended.1, ?_, hlast, ?_⟩
    · intro other hother
      rcases List.mem_append.mp hother with hother | hother
      · exact h.conforms other hother
      · rwa [List.mem_singleton.mp hother]
    · intro other hother
      rcases List.mem_append.mp hother with hother | hother
      · exact hjoined other hother
      · rw [List.mem_singleton.mp hother]
        exact ⟨row, rfl, hrow.samePartition_self hfields⟩
  | error e s =>
    have hnone : held ++ ((Step.push row).accepted (.error e)).toList = held := by
      simp [Step.accepted]
    rw [happend] at happended
    rw [Action.outcome_of_error (keepRow_of_error happend out)] at hcarries ⊢
    refine ⟨_, _, rfl, ?_⟩
    rw [hnone]
    exact ⟨hcarries, happended.1, h.conforms, hlast, hjoined⟩

/-- A flush leaves nothing held. -/
theorem Collects.flush (h : Collects types fs₀ fields s₀ held op)
    (hfs : ∀ f ∈ fs₀, f.tally.Forgets) (sink : Sink ω) (out : ω) :
    Collects types fs₀ fields s₀ [] ((ByPartition.flush sink).outcome (op, out)).2.1 := by
  obtain ⟨hcarries, hrows, -⟩ := h.carries.flush (keepsFrames_twin hfs) sink out
  constructor
  · rwa [hcarries.last]
  · exact hrows
  · simp
  · simp [hcarries.last]
  · simp

/-- What comes of a step while these rows are held. -/
inductive Advances (types : List DataType) (fs₀ : List (Frame σ)) (fields : List Nat)
    (s₀ : RowStore) (sink : Sink ω) (held : List Row) (op : ByPartition σ) (out : ω) (step : Step) :
    Except Error Unit × ByPartition σ × ω → Prop where
  /-- They stay, and the receiver sees nothing of the step. -/
  | keeps {answer : Except Error Unit} {op' : ByPartition σ}
      (h : Collects types fs₀ fields s₀ (held ++ (step.accepted answer).toList) op') :
      Advances types fs₀ fields s₀ sink held op out step (answer, op', out)
  /-- They are flushed; the receiver sees the flush, and the step fails if this fails. -/
  | flushes {answer : Except Error Unit} {op' : ByPartition σ} {out' : ω}
      (h : Collects types fs₀ fields s₀ (step.accepted answer).toList op')
      (hout : ((ByPartition.flush sink).outcome (op, out)).2.2 = out')
      (hanswer : answer = .ok () → ((ByPartition.flush sink).outcome (op, out)).1 = .ok ()) :
      Advances types fs₀ fields s₀ sink held op out step (answer, op', out')

/-- **The end of the input.** -/
theorem Collects.finish (h : Collects types fs₀ fields s₀ held op)
    (hfs : ∀ f ∈ fs₀, f.tally.Forgets) (sink : Sink ω) (out : ω) :
    Advances types fs₀ fields s₀ sink held op out .finish
      ((ByPartition.finish sink).outcome (op, out)) := by
  refine .flushes ?_ rfl id
  have hnone (answer : Except Error Unit) : (Step.finish.accepted answer).toList = [] := by
    cases answer <;> rfl
  rw [hnone]
  exact h.flush hfs sink out

/-- **One more row.** -/
theorem Collects.push (h : Collects types fs₀ fields s₀ held op)
    (hfs : ∀ f ∈ fs₀, f.tally.Forgets)
    (hfields : ∀ index ∈ fields, ∃ type, fieldType types index = .ok type)
    (hrow : Row.Conforms row types) (sink : Sink ω) (out : ω) :
    Advances types fs₀ fields s₀ sink held op out (.push row)
      ((ByPartition.push sink row).outcome (op, out)) := by
  have hkeeps (hstarts : op.startsPartition row = .ok false)
      (hjoins : ∀ other ∈ held, Row.samePartition fields other row = .ok true) :
      Advances types fs₀ fields s₀ sink held op out (.push row)
        ((ByPartition.push sink row).outcome (op, out)) := by
    obtain ⟨answer, op', hkeep, hcollects⟩ := h.keepRow hfields hrow hjoins out
    have hpush : (ByPartition.push sink row).outcome (op, out) =
        (ByPartition.keepRow row).outcome (op, out) := by
      unfold Action.outcome
      rw [push_of_joins hstarts]
    rw [hpush, hkeep]
    exact .keeps hcollects
  cases hlast : op.last with
  | none =>
    have hstarts : op.startsPartition row = .ok false := by
      unfold startsPartition
      rw [hlast]
      rfl
    apply hkeeps hstarts
    intro other hother
    obtain ⟨last, hl, -⟩ := h.joined other hother
    rw [hlast] at hl
    cases hl
  | some last =>
    have hconforms := h.last last hlast
    obtain ⟨b, hb⟩ := hconforms.samePartition hrow hfields
    have hstarts : op.startsPartition row = .ok !b := by
      unfold startsPartition
      rw [hlast, h.carries.partition]
      exact Answer.bind_of_ok hb
    cases b with
    | true =>
      apply hkeeps hstarts
      intro other hother
      obtain ⟨last', hlast', hother'⟩ := h.joined other hother
      obtain rfl : last = last' := Option.mem_unique hlast hlast'
      exact (h.conforms other hother).samePartition_trans hconforms hrow hfields hother' hb
    | false =>
      have hflushed := h.flush hfs sink out
      have hpush : ByPartition.push sink row (op, out) = _ := push_of_starts hstarts out
      cases hflush : ByPartition.flush sink (op, out) with
      | ok u s =>
        rw [Action.outcome_of_ok hflush] at hflushed
        obtain ⟨answer, op', hkeep, hcollects⟩ := hflushed.keepRow hfields hrow nofun s.2
        have hpush' : (ByPartition.push sink row).outcome (op, out) =
            (ByPartition.keepRow row).outcome s := by
          unfold Action.outcome
          rw [hpush, Action.bind_of_ok hflush]
        rw [hpush', hkeep]
        apply Advances.flushes hcollects
        · rw [Action.outcome_of_ok hflush]
        · intro _
          rw [Action.outcome_of_ok hflush]
      | error e s =>
        rw [Action.outcome_of_error hflush] at hflushed
        rw [Action.outcome_of_error (hpush.trans (Action.bind_of_error hflush))]
        apply Advances.flushes hflushed
        · rw [Action.outcome_of_error hflush]
        · intro h
          cases h

/-! ## Rows that are held in memory -/

/-- Rows of one partition go into memory while there is room, and nothing is offered. -/
theorem exists_forM_push {rows : List Row} (hspill : op.store.spill = none)
    (hroom : op.store.memoryUsed + Row.totalSize rows ≤ op.store.options.memory)
    (hlast : ∀ last ∈ op.last, ∀ row ∈ rows, Row.samePartition op.partition last row = .ok true)
    (hrows : rows.Pairwise fun a b => Row.samePartition op.partition a b = .ok true)
    (sink : Sink ω) (out : ω) :
    ∃ op', rows.forM (ByPartition.push sink) (op, out) = .ok () (op', out) ∧
      op'.frames = op.frames ∧ op'.store.Holds (op.store.rows.toList ++ rows) := by
  induction rows generalizing op with
  | nil =>
    refine ⟨op, rfl, rfl, RowStore.holds_of_spill_eq_none hspill ?_⟩
    rw [List.append_nil]
  | cons row rows ih =>
    obtain ⟨hrow, hrows⟩ := List.pairwise_cons.mp hrows
    rw [Row.totalSize_cons] at hroom
    have hstarts : op.startsPartition row = .ok false := by
      unfold startsPartition
      cases hl : op.last with
      | none => rfl
      | some last => exact Answer.bind_of_ok (hlast last hl row List.mem_cons_self)
    obtain ⟨s, happend, hs⟩ : ∃ s, RowStore.append row op.store = .ok () s ∧ s = { op.store with
        rows := op.store.rows.push row, memoryUsed := op.store.memoryUsed + row.size } :=
      ⟨_, RowStore.append_of_room hspill (by omega), rfl⟩
    have hpush : ByPartition.push sink row (op, out) =
        .ok () ({ op with last := some row, store := s }, out) :=
      (push_of_joins hstarts out).trans (keepRow_of_ok happend out)
    have hlast' : ∀ last ∈ some row, ∀ other ∈ rows,
        Row.samePartition op.partition last other = .ok true := by
      rintro _ ⟨⟩
      exact hrow
    have hspill' : s.spill = none := by rw [hs, hspill]
    have hroom' : s.memoryUsed + Row.totalSize rows ≤ s.options.memory := by
      rw [hs]
      dsimp only
      omega
    obtain ⟨op', hforM, hframes, hholds⟩ :=
      @ih { op with last := some row, store := s } hspill' hroom' hlast' hrows
    refine ⟨op', (Action.bind_of_ok hpush).trans hforM, hframes, ?_⟩
    rwa [hs, Array.toList_push, List.append_assoc] at hholds

end ByPartition

end SqlWindow
