import SqlWindow.Proofs.Operator.Execute
import SqlWindow.Proofs.Operator.Mirror
import SqlWindow.Proofs.Row.Classes

set_option autoImplicit false

/-! # Partitions of sorted input

An operator compares each row with the one before it and with no other. Over input that is sorted
by the partition fields this is enough: what it collects is, at every moment, all rows so far with
the partition fields of the last one, and a row starts a partition exactly when no row before it
has its partition fields.

The frames of the operator and the functions of its calls have no part in this. They can make a
step fail, but they cannot move a boundary.
-/

namespace SqlWindow

variable {σ ω : Type} {types : List DataType} {keys : List SortKey} {input : List Row} {row : Row}

/-! ## Runs of sorted input -/

namespace WindowSpec

variable {s : WindowSpec}

theorem joins_eq_true_iff {before : Row} :
    s.joins before row = true ↔ Row.samePartition s.partition before row = .ok true := by
  unfold joins
  cases Row.samePartition s.partition before row <;> simp

theorem joins_eq_false_iff {before : Row} (hbefore : Row.Conforms before types)
    (hrow : Row.Conforms row types)
    (hfields : ∀ index ∈ s.partition, ∃ type, fieldType types index = .ok type) :
    s.joins before row = false ↔ Row.samePartition s.partition before row = .ok false := by
  rw [Row.samePartition_eq_false_iff hbefore hrow hfields, Ne, ← joins_eq_true_iff,
    Bool.not_eq_true]

/-- **Runs of sorted input are classes**, whatever the directions of the ordering. -/
theorem areClasses_runs
    (hfields : ∀ index ∈ s.partition, ∃ type, fieldType types index = .ok type)
    (hkeys : sameFields (keys.map SortKey.index) s.partition = true)
    (hinput : ∀ row ∈ input, Row.Conforms row types) (hsorted : Row.Sorted keys input) :
    Row.AreClasses s.partition input (s.runs input) := by
  induction input using List.reverseRecOn with
  | nil => exact Row.areClasses_nil _
  | append_singleton input row ih =>
    have hfront : ∀ r ∈ input, Row.Conforms r types :=
      fun r hr => hinput r (List.mem_append_left _ hr)
    have hrow : Row.Conforms row types := hinput row (by simp)
    have hself := hrow.samePartition_self hfields
    have hclasses := ih hfront (List.pairwise_append.mp hsorted).1
    by_cases hne : input = []
    · subst hne
      exact hclasses.start hself nofun
    · obtain ⟨closed, run, last, hlast, hruns, hconcat⟩ := s.runs_concat hne
      have hclast : Row.Conforms last types := hfront last (List.mem_of_getLast? hlast)
      rw [hconcat row]
      cases hjoins : s.joins last row with
      | true =>
        rw [hruns] at hclasses
        have hjoined := hclasses.join hfields hinput (by simp) (joins_eq_true_iff.mp hjoins)
        rwa [List.append_assoc run] at hjoined
      | false =>
        have hstarts := (joins_eq_false_iff hclast hrow hfields).mp hjoins
        have hnew := hsorted.samePartition_eq_false hfields hkeys hinput hlast hstarts
        have hstarted := hclasses.start hself hnew
        rwa [hruns, List.append_assoc closed] at hstarted

/-- The fields of all groups cut an input alike. -/
theorem runs_group_eq {g : WindowGroup}
    (hfields : ∀ index ∈ g.partition, ∃ type, fieldType types index = .ok type)
    (hsame : sameFields g.partition s.partition = true)
    (hinput : ∀ row ∈ input, Row.Conforms row types) :
    WindowSpec.runs ⟨[g]⟩ input = s.runs input := by
  induction input using List.reverseRecOn with
  | nil => rfl
  | append_singleton input row ih =>
    have hfront : ∀ r ∈ input, Row.Conforms r types :=
      fun r hr => hinput r (List.mem_append_left _ hr)
    by_cases hne : input = []
    · subst hne
      rfl
    · obtain ⟨closed, run, last, hlast, hruns, hconcat⟩ := s.runs_concat hne
      obtain ⟨closed', run', last', hlast', hruns', hconcat'⟩ := runs_concat ⟨[g]⟩ hne
      obtain rfl : last = last' := Option.some.inj (hlast.symm.trans hlast')
      have hjoins : WindowSpec.joins ⟨[g]⟩ last row = s.joins last row := by
        have hclast := hfront last (List.mem_of_getLast? hlast)
        rw [Bool.eq_iff_iff, joins_eq_true_iff, joins_eq_true_iff,
          ← Row.samePartition_congr hclast (hinput row (by simp)) hfields hsame]
        rfl
      have hopen := (hruns'.symm.trans (ih hfront)).trans hruns
      obtain ⟨rfl, hrun⟩ := List.append_inj' hopen rfl
      obtain rfl : run' = run := List.append_cancel_right (List.cons.inj hrun).1
      rw [hconcat, hconcat', hjoins]

end WindowSpec

/-! ## Whatever the frames do -/

namespace ByPartition

variable {spec : WindowSpec} {fs₀ : List (Frame σ)} {s₀ : RowStore} {op : ByPartition σ}
  {sink : Sink ω} {out : ω} {run : List Row}

/-- Frames stay of their kind and between their bounds, whatever their functions do. -/
theorem keepsFrames_any : KeepsFrames (Frame.Carries fun _ => True) fs₀ s₀ := by
  have hany : Tally.KeepsRows fun _ : CallTally σ => True :=
    ⟨fun _ _ _ => trivial, fun _ _ _ => trivial, fun _ _ => trivial⟩
  exact fun f _ => ⟨Frame.preserves_prepare hany fun _ _ _ _ => trivial,
    Frame.preserves_process hany⟩

/-- The operator has taken these rows in: it knows the last of them, and the run that is open is in
its store. -/
structure Follows (spec : WindowSpec) (fs₀ : List (Frame σ)) (s₀ : RowStore) (input : List Row)
    (op : ByPartition σ) : Prop where
  carries : op.Carries (Frame.Carries fun _ => True) fs₀ spec.partition s₀ input.getLast?
  rows : op.store.Holds ((spec.runs input).getLast?.getD [])

/-- A row that is kept joins the rows of its run. -/
theorem follows_of_keepRow (closed : List (List Row)) {last : Option Row}
    (h : op.Carries (Frame.Carries fun _ => True) fs₀ spec.partition s₀ last)
    (hrun : op.store.Holds run)
    (hruns : spec.runs (input ++ [row]) = closed ++ [run ++ [row]]) {s : ByPartition σ × ω}
    (hkeep : keepRow row (op, out) = .ok () s) : Follows spec fs₀ s₀ (input ++ [row]) s.1 := by
  have hcarries := h.keepRow row out
  rw [Action.outcome_of_ok hkeep] at hcarries
  have happended := hrun.append row
  constructor
  · rwa [List.getLast?_concat]
  · rw [hruns, List.getLast?_concat]
    cases happend : RowStore.append row op.store with
    | ok u t =>
      rw [keepRow_of_ok happend] at hkeep
      rw [happend] at happended
      cases hkeep
      exact happended.1
    | error e t =>
      rw [keepRow_of_error happend] at hkeep
      cases hkeep

/-- The row is compared with the last one. -/
theorem Follows.startsPartition (h : Follows spec fs₀ s₀ input op) {last : Row}
    (hlast : input.getLast? = some last) {same : Bool}
    (hsame : Row.samePartition spec.partition last row = .ok same) :
    op.startsPartition row = .ok !same := by
  unfold ByPartition.startsPartition
  rw [h.carries.last, hlast, h.carries.partition]
  exact Answer.bind_of_ok hsame

theorem Follows.startsPartition_first (h : Follows spec fs₀ s₀ [] op) :
    op.startsPartition row = .ok false := by
  unfold ByPartition.startsPartition
  rw [h.carries.last]
  rfl

/-- **One more row.** -/
theorem Follows.push (h : Follows spec fs₀ s₀ input op)
    (hfields : ∀ index ∈ spec.partition, ∃ type, fieldType types index = .ok type)
    (hinput : ∀ r ∈ input ++ [row], Row.Conforms r types) {s : ByPartition σ × ω}
    (hpush : ByPartition.push sink row (op, out) = .ok () s) :
    Follows spec fs₀ s₀ (input ++ [row]) s.1 := by
  by_cases hne : input = []
  · subst hne
    rw [push_of_joins h.startsPartition_first] at hpush
    exact follows_of_keepRow [] h.carries h.rows rfl hpush
  · obtain ⟨closed, run, last, hlast, hruns, hconcat⟩ := spec.runs_concat hne
    have hclast : Row.Conforms last types :=
      hinput last (List.mem_append_left _ (List.mem_of_getLast? hlast))
    obtain ⟨same, hsame⟩ := hclast.samePartition (hinput row (by simp)) hfields
    have hjoins : spec.joins last row = same := by rw [WindowSpec.joins, hsame]
    have hstarts := h.startsPartition hlast hsame
    have hnext := hconcat row
    have hrows := h.rows
    rw [hjoins] at hnext
    rw [hruns, List.getLast?_concat] at hrows
    cases same with
    | true =>
      rw [push_of_joins hstarts] at hpush
      refine follows_of_keepRow closed h.carries hrows ?_ hpush
      rw [hnext, if_pos rfl]
      simp
    | false =>
      rw [push_of_starts hstarts] at hpush
      obtain ⟨⟨⟩, ⟨op₁, out₁⟩, hflush, hkeep⟩ := Action.ok_of_bind_ok hpush
      obtain ⟨hcarries, hempty, -⟩ := h.carries.flush keepsFrames_any sink out
      rw [Action.outcome_of_ok hflush] at hcarries hempty
      refine follows_of_keepRow (closed ++ [run ++ [last]]) hcarries hempty ?_ hkeep
      rw [hnext, if_neg Bool.false_ne_true]
      simp

/-- **Any rows** that are taken in without an error. -/
theorem Follows.forM (h : Follows spec fs₀ s₀ input op)
    (hfields : ∀ index ∈ spec.partition, ∃ type, fieldType types index = .ok type)
    {rest : List Row} (hinput : ∀ r ∈ input ++ rest, Row.Conforms r types) {s : ByPartition σ × ω}
    (hforM : rest.forM (ByPartition.push sink) (op, out) = .ok () s) :
    Follows spec fs₀ s₀ (input ++ rest) s.1 := by
  induction rest generalizing input op out with
  | nil =>
    cases hforM
    rwa [List.append_nil]
  | cons row rest ih =>
    obtain ⟨⟨⟩, ⟨op₁, out₁⟩, hpush, hrest⟩ := Action.ok_of_bind_ok hforM
    rw [List.append_cons] at hinput ⊢
    exact ih (h.push hfields (fun r hr => hinput r (List.mem_append_left _ hr)) hpush) hinput hrest

/-! ## Over sorted input -/

/-- What is held are all rows with the partition fields of the last one. -/
theorem Follows.holds_filter (h : Follows spec fs₀ s₀ input op)
    (hclasses : Row.AreClasses spec.partition input (spec.runs input)) {last : Row}
    (hlast : input.getLast? = some last) : op.store.Holds (input.filter (spec.joins · last)) := by
  have hne : input ≠ [] := by
    rintro rfl
    cases hlast
  obtain ⟨closed, run, last', hlast', hruns, -⟩ := spec.runs_concat hne
  obtain rfl : last = last' := Option.some.inj (hlast.symm.trans hlast')
  have hrows := h.rows
  rw [hruns, List.getLast?_concat] at hrows
  rw [hruns] at hclasses
  rwa [hclasses.filter_eq (by simp) fun r _ => WindowSpec.joins_eq_true_iff]

/-- A row starts a partition when no row before it has its partition fields. -/
theorem Follows.startsPartition_eq (h : Follows spec fs₀ s₀ input op)
    (hfields : ∀ index ∈ spec.partition, ∃ type, fieldType types index = .ok type)
    (hkeys : WindowSpec.sameFields (keys.map SortKey.index) spec.partition = true)
    (hinput : ∀ r ∈ input ++ [row], Row.Conforms r types)
    (hsorted : Row.Sorted keys (input ++ [row])) :
    op.startsPartition row =
      .ok (!input.isEmpty && input.all fun earlier => !spec.joins earlier row) := by
  by_cases hne : input = []
  · subst hne
    exact h.startsPartition_first
  · obtain ⟨-, -, last, hlast, -⟩ := spec.runs_concat hne
    have hmem := List.mem_of_getLast? hlast
    have hconforms (r : Row) (hr : r ∈ input) : Row.Conforms r types :=
      hinput r (List.mem_append_left _ hr)
    have hrow : Row.Conforms row types := hinput row (by simp)
    obtain ⟨same, hsame⟩ := (hconforms last hmem).samePartition hrow hfields
    rw [h.startsPartition hlast hsame, List.isEmpty_eq_false_iff.mpr hne, Bool.not_false,
      Bool.true_and]
    congr 1
    symm
    cases same with
    | true =>
      -- the last row is one that has them
      rw [Bool.not_true, List.all_eq_false]
      exact ⟨last, hmem, by rw [WindowSpec.joins_eq_true_iff.mpr hsame]; nofun⟩
    | false =>
      have hnew := hsorted.samePartition_eq_false hfields hkeys hinput hlast hsame
      rw [Bool.not_false, List.all_eq_true]
      intro earlier hearlier
      rw [(WindowSpec.joins_eq_false_iff (hconforms earlier hearlier) hrow hfields).mpr
        (hnew earlier hearlier)]
      rfl

end ByPartition

namespace WindowOperator

variable {spec : WindowSpec} {registry : Registry σ} {options : Options} {canSpill : Bool}

/-- An operator that was built to collect partitions has taken nothing yet. -/
theorem follows_of_ofSpec {op₀ : ByPartition σ}
    (h : ofSpec spec types options canSpill registry = .ok (byPartition op₀)) :
    op₀.Follows spec op₀.frames { options, canSpill } [] := by
  have hempty : RowStore.Holds { options, canSpill } [] := RowStore.holds_of_spill_eq_none rfl rfl
  obtain ⟨-, ⟨-, frames, -, heq⟩ | ⟨-, frames, -, heq⟩⟩ := ofSpec_eq_ok_iff.mp h
  · cases heq
    exact ⟨⟨List.forall₂_same.mpr fun f _ => Frame.carries_self trivial, rfl,
      ⟨⟨[], hempty⟩, .refl _⟩, rfl⟩, hempty⟩
  · cases heq

/-- **Partitions of sorted input are classes.** The input of an accepted specification conforms to
its types and is sorted by fields that are, up to order and repetition, the partition fields, each
ascending or descending. Then the runs are the classes of the rows with the same values in all
partition fields, and they are the same whichever group's partition fields are used.

Operators collect these classes, whatever their options and functions and whoever receives the
output. When a front part of the input has been taken without an error, the operator holds all of
its rows with the partition fields of the last one; and it sees the next row start a partition
exactly when there are rows before it and none of them has its partition fields. -/
theorem partitions_of_sorted (hcheck : spec.check types registry = .ok ())
    (hkeys : WindowSpec.sameFields (keys.map SortKey.index) spec.partition = true)
    (hinput : ∀ row ∈ input, Row.Conforms row types) (hsorted : Row.Sorted keys input) :
    (∀ g ∈ spec.groups, Row.AreClasses g.partition input (spec.runs input) ∧
      WindowSpec.runs ⟨[g]⟩ input = spec.runs input) ∧
    ∀ options canSpill (op₀ : ByPartition σ),
      ofSpec spec types options canSpill registry = .ok (byPartition op₀) →
      ∀ (sink : Sink ω) (out : ω) (front : List Row) (s : WindowOperator σ × ω), front <+: input →
        front.forM (push sink) (byPartition op₀, out) = .ok () s →
        ∃ op, s.1 = byPartition op ∧
          (∀ last, front.getLast? = some last →
            op.store.Holds (front.filter (spec.joins · last))) ∧
          ∀ row, front ++ [row] <+: input → op.startsPartition row =
            .ok (!front.isEmpty && front.all fun earlier => !spec.joins earlier row) := by
  have hfields := WindowSpec.exists_fieldType_of_check hcheck
  refine ⟨fun g hg => ?_, ?_⟩
  · obtain ⟨position, hgroup⟩ := (WindowSpec.accepted_of_check hcheck).2 g hg
    have hgroupFields := (WindowGroup.accepted_of_check hgroup).1.partition
    have hsame := (WindowSpec.groups_of_check hcheck g hg).1
    have hruns := WindowSpec.runs_group_eq hgroupFields hsame hinput
    have hgroupKeys : WindowSpec.sameFields (keys.map SortKey.index) g.partition = true := by
      rw [WindowSpec.sameFields_eq_true_iff] at hkeys hsame ⊢
      exact fun index => (hkeys index).trans (hsame index).symm
    refine ⟨?_, hruns⟩
    rw [← hruns]
    exact WindowSpec.areClasses_runs (s := ⟨[g]⟩) hgroupFields hgroupKeys hinput hsorted
  · intro options canSpill op₀ hop sink out front s hfront hforM
    obtain ⟨op, out', hforM', rfl⟩ :=
      (drives_push_byPartition sink front).exists_of_ok hforM
    have hconforms : ∀ r ∈ [] ++ front, Row.Conforms r types :=
      fun r hr => hinput r (hfront.subset hr)
    have hfollows := (follows_of_ofSpec hop).forM hfields hconforms hforM'
    refine ⟨op, rfl, fun last hlast => ?_, fun row hrow => ?_⟩
    · exact hfollows.holds_filter (WindowSpec.areClasses_runs hfields hkeys hconforms
        (hsorted.sublist hfront.sublist)) hlast
    · exact hfollows.startsPartition_eq hfields hkeys (fun r hr => hinput r (hrow.subset hr))
        (hsorted.sublist hrow.sublist)

/-- `LEAD($2)` in partitions by `$1` and `$0`, next to `COUNT(*)` in partitions by `$0`, `$1` and
`$0` again. -/
def nextByTwoFields : WindowSpec where
  groups :=
    [{ partition := [1, 0], calls := [.make "LEAD" [.field 2]] },
     { partition := [0, 1, 0], calls := [.make "COUNT" []] }]

/-- JSON texts from the last to the first and NULL behind them, each with floats from the least to
the greatest: two zeros, which are one value, and two of those that are not a number. -/
def rowsByTwoFields : List Row :=
  [[.json "b", .float (.zero true), .integer 1],
   [.json "b", .float (.zero false), .integer 2],
   [.json "a", .float .nan, .integer 3],
   [.json "a", .float (.ofMagnitude true (Double.infinityMagnitude + 1)), .integer 4],
   [.unknown, .float (.zero false), .integer 5]]

theorem partitions_of_sorted_zeros :
    (Row.AreClasses [0, 1, 0] rowsByTwoFields
      [rowsByTwoFields.take 2, (rowsByTwoFields.drop 2).take 2, rowsByTwoFields.drop 4]) ∧
    ∃ op₀ s op,
      ofSpec nextByTwoFields [.json, .float, .integer] {} true (Registry.builtin : Registry Empty) =
        .ok (byPartition op₀) ∧
      (rowsByTwoFields.take 4).forM (push Sink.collect) (byPartition op₀, []) = .ok () s ∧
      s.1 = byPartition op ∧ op.store.Holds ((rowsByTwoFields.drop 2).take 2) ∧
      op.startsPartition [.unknown, .float (.zero false), .integer 5] = .ok true := by
  have hsorted : Row.Sorted [⟨0, false⟩, ⟨1, true⟩] rowsByTwoFields := by
    unfold Row.Sorted rowsByTwoFields
    simp only [List.pairwise_cons, List.forall_mem_cons]
    refine ⟨⟨?_, ?_, ?_, ?_, ?_⟩, ⟨?_, ?_, ?_, ?_⟩, ⟨?_, ?_, ?_⟩, ⟨?_, ?_⟩, ?_, .nil⟩ <;> nofun
  obtain ⟨hgroups, hoperator⟩ := @partitions_of_sorted Empty (List Row) [.json, .float, .integer]
    [⟨0, false⟩, ⟨1, true⟩] rowsByTwoFields nextByTwoFields Registry.builtin rfl rfl (by decide)
    hsorted
  have hruns : nextByTwoFields.runs rowsByTwoFields = [rowsByTwoFields.take 2,
      (rowsByTwoFields.drop 2).take 2, rowsByTwoFields.drop 4] := rfl
  have hmade : ∀ g ∈ nextByTwoFields.groups, ∀ c ∈ g.calls, c.IsMade := by
    simp only [nextByTwoFields, List.forall_mem_cons, List.not_mem_nil, false_imp_iff,
      implies_true, and_true]
    exact ⟨⟨_, _, rfl⟩, ⟨_, _, rfl⟩⟩
  refine ⟨?_, ?_⟩
  · rw [← hruns]
    exact (hgroups _ (List.mem_cons_of_mem _ List.mem_cons_self)).1
  · obtain ⟨frames, v, hready, hframes, ha, hop⟩ := @exists_ofSpec_byPartition Empty
      [.json, .float, .integer] nextByTwoFields rfl rfl hmade {}
    have hidle := ByPartition.isIdle_new (fun f hf => (hready f hf).renew_eq)
      nextByTwoFields.partition {} true
    obtain ⟨s, hforM, -⟩ := ByPartition.HasTaken.forM ha (rowsByTwoFields.take 4)
      (hidle.hasTaken (v := v)) (by decide)
    have htaken := (drives_push_byPartition Sink.collect (rowsByTwoFields.take 4)).of_ok hforM
    obtain ⟨op, hs, hheld, hstarts⟩ := hoperator {} true _ hop Sink.collect []
      (rowsByTwoFields.take 4) _ (List.take_prefix 4 _) htaken
    exact ⟨_, _, op, hop, htaken, hs, hheld _ rfl, hstarts _ (List.prefix_refl _)⟩

end WindowOperator

end SqlWindow
