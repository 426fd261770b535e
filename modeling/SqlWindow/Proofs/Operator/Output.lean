import Mathlib.Data.List.SplitBy
import SqlWindow.Proofs.Group.Frames

set_option autoImplicit false

/-! # What a specification gives for an input

The input is cut into runs of adjacent rows that belong to one partition. Each run is answered on
its own: every row followed by its values, group by group, where the values of a group are those
that its freshly built frames alone give on a store with nothing but this run. No operator takes
part in this; that operators give the same is shown in `SqlWindow.Proofs.Operator.Execute`.
-/

namespace SqlWindow

variable {σ : Type} {types : List DataType}

/-- A store with rows in memory. -/
def RowStore.ofRows (rows : List Row) : RowStore := { options := default, rows := rows.toArray }

theorem RowStore.holds_ofRows (rows : List Row) : (RowStore.ofRows rows).Holds rows :=
  holds_of_spill_eq_none rfl rfl

namespace WindowSpec

/-! ## Runs -/

/-- A row belongs to the partition of the row before it. -/
def joins (s : WindowSpec) (before row : Row) : Bool :=
  match Row.samePartition s.partition before row with
  | .ok b => b
  | .error _ => false

/-- The input cut where a row does not belong to the partition of the row before it. -/
def runs (s : WindowSpec) (input : List Row) : List (List Row) := input.splitBy s.joins

/-- The output for a run. Every group has values for each row (`WindowGroup.length_of_values`), so
the empty row never stands in for any. -/
def runOutput (s : WindowSpec) (registry : Registry σ) (run : List Row) :
    Except Error (List Row) := do
  let values ← s.groups.mapM fun g => g.values registry (.ofRows run)
  return run.zipIdx.map fun (row, i) => row ++ (values.map fun v => v.getD i []).flatten

/-- The output for some runs. -/
def runsOutput (s : WindowSpec) (registry : Registry σ) (runs : List (List Row)) :
    Except Error (List Row) :=
  List.flatten <$> runs.mapM (s.runOutput registry)

theorem mem_of_mem_runs {s : WindowSpec} {input run : List Row} {row : Row}
    (hrun : run ∈ s.runs input) (hrow : row ∈ run) : row ∈ input := by
  rw [← List.flatten_splitBy s.joins input]
  exact List.mem_flatten.mpr ⟨run, hrun, hrow⟩

/-! ### One more row -/

theorem loop_concat {α : Type} {r : α → α → Bool} (l : List α) (a : α) (g : List α)
    (gs : List (List α)) : ∃ closed run last, (a :: l).getLast? = some last ∧
      List.splitBy.loop r l a g gs = closed ++ [run ++ [last]] ∧
      ∀ x, List.splitBy.loop r (l ++ [x]) a g gs =
        if r last x then closed ++ [run ++ [last, x]] else closed ++ [run ++ [last], [x]] := by
  induction l generalizing a g gs with
  | nil =>
    refine ⟨gs.reverse, g.reverse, a, rfl, by simp [List.splitBy.loop], fun x => ?_⟩
    cases hx : r a x <;> simp [List.splitBy.loop, hx]
  | cons b l ih =>
    rw [List.getLast?_cons_cons, List.splitBy.loop]
    cases hb : r a b with
    | true =>
      obtain ⟨closed, run, last, hlast, hloop, hnext⟩ := ih b (a :: g) gs
      refine ⟨closed, run, last, hlast, hloop, fun x => ?_⟩
      rw [List.cons_append, List.splitBy.loop, hb]
      exact hnext x
    | false =>
      obtain ⟨closed, run, last, hlast, hloop, hnext⟩ := ih b [] ((a :: g).reverse :: gs)
      refine ⟨closed, run, last, hlast, hloop, fun x => ?_⟩
      rw [List.cons_append, List.splitBy.loop, hb]
      exact hnext x

/-- **One more row** either goes on with the last run or starts one. -/
theorem runs_concat (s : WindowSpec) {input : List Row} (hne : input ≠ []) :
    ∃ closed run last, input.getLast? = some last ∧ s.runs input = closed ++ [run ++ [last]] ∧
      ∀ row, s.runs (input ++ [row]) = if s.joins last row then closed ++ [run ++ [last, row]]
        else closed ++ [run ++ [last], [row]] := by
  cases input with
  | nil => exact absurd rfl hne
  | cons a l => exact loop_concat l a [] []

/-! ## Accepted specifications -/

variable {s : WindowSpec} {registry : Registry σ}

/-- The groups of an accepted specification are accepted, and partition by the same fields. -/
theorem groups_of_check (h : s.check types registry = .ok ()) :
    ∀ g ∈ s.groups, sameFields g.partition s.partition = true ∧
      ∃ position, g.check position types registry = .ok () := by
  unfold check at h
  unfold partition
  cases hgroups : s.groups with
  | nil => exact fun g hg => absurd hg List.not_mem_nil
  | cons first rest =>
    rw [hgroups] at h
    intro g hg
    obtain ⟨i, hi⟩ := List.mem_iff_getElem?.mp hg
    have hmem : (g, i) ∈ (first :: rest).zipIdx := List.mk_mem_zipIdx_iff_getElem?.mpr hi
    have hchecks := Answer.forM_eq_ok_iff.mp h (g, i) hmem
    dsimp only at hchecks
    by_cases hsame : sameFields g.partition first.partition = true
    · rw [hsame] at hchecks
      exact ⟨hsame, i, hchecks⟩
    · rw [Bool.eq_false_iff.mpr hsame] at hchecks
      cases hchecks

theorem accepted_of_check (h : s.check types registry = .ok ()) :
    (∃ g ∈ s.groups, s.partition = g.partition) ∧
      ∀ g ∈ s.groups, ∃ position, g.check position types registry = .ok () := by
  refine ⟨?_, fun g hg => (groups_of_check h g hg).2⟩
  unfold check at h
  unfold partition
  cases hgroups : s.groups with
  | nil =>
    rw [hgroups] at h
    cases h
  | cons first rest => exact ⟨first, List.mem_cons_self, rfl⟩

theorem exists_fieldType_of_check (h : s.check types registry = .ok ()) :
    ∀ index ∈ s.partition, ∃ type, fieldType types index = .ok type := by
  obtain ⟨⟨g, hg, hpartition⟩, hgroups⟩ := accepted_of_check h
  obtain ⟨position, hcheck⟩ := hgroups g hg
  rw [hpartition]
  exact (WindowGroup.accepted_of_check hcheck).1.partition

/-- The frames of an accepted specification, group by group. -/
theorem exists_frames (h : s.check types (Registry.builtin : Registry σ) = .ok ())
    (hmade : ∀ g ∈ s.groups, g.mode = .offset → ∀ c ∈ g.calls, c.IsMade) :
    ∃ frames : List (List (Frame σ)),
      s.groups.mapM (Frame.ofGroup · Registry.builtin) = .ok frames ∧
        ∀ f ∈ frames.flatten, f.IsReady types := by
  have hready : ∀ g ∈ s.groups, ∃ fs : List (Frame σ),
      Frame.ofGroup g Registry.builtin = .ok fs ∧ ∀ f ∈ fs, f.IsReady types := by
    intro g hg
    obtain ⟨position, hcheck⟩ := (accepted_of_check h).2 g hg
    exact WindowGroup.exists_frames hcheck (hmade g hg)
  obtain ⟨frames, hframes⟩ := Answer.exists_mapM_eq_ok fun g hg =>
    (hready g hg).imp fun _ => And.left
  refine ⟨frames, hframes, fun f hf => ?_⟩
  obtain ⟨fs, hfs, hf⟩ := List.mem_flatten.mp hf
  obtain ⟨g, hg, heq⟩ := Answer.exists_of_mem_mapM hframes hfs
  obtain ⟨fs', hfs', hready'⟩ := hready g hg
  rw [hfs'] at heq
  exact hready' f (Except.ok.inj heq ▸ hf)

/-! ## Output from columns -/

/-- The rows of a run, each followed by the values of the frames for it: frame `f` has the value
`v f run i` for row `i` of the run. -/
def outputRows (v : Frame σ → List Row → Nat → Row) (fs : List (Frame σ)) (run : List Row) :
    List Row :=
  run.zipIdx.map fun p => p.1 ++ (fs.map fun f => v f run p.2).flatten

/-- **The output for a run** is made of what all frames answer there. -/
theorem runOutput_eq {frames : List (List (Frame σ))} {v : Frame σ → List Row → Nat → Row}
    {run : List Row} (hframes : s.groups.mapM (Frame.ofGroup · registry) = .ok frames)
    (hnew : ∀ f ∈ frames.flatten, f.renew = f)
    (hv : ∀ f ∈ frames.flatten, f.Evaluates run (v f run)) :
    s.runOutput registry run = .ok (outputRows v frames.flatten run) := by
  have hvalues : s.groups.mapM (fun g => g.values registry (.ofRows run)) =
      .ok (frames.map fun fs => (List.range run.length).map fun i =>
        (fs.map fun f => v f run i).flatten) := by
    refine Answer.mapM_eq_ok_map hframes fun g _ fs hfs hmem => ?_
    exact WindowGroup.values_eq hfs (fun f hf => hnew f (List.mem_flatten.mpr ⟨fs, hmem, hf⟩))
      (fun f hf => hv f (List.mem_flatten.mpr ⟨fs, hmem, hf⟩)) (RowStore.holds_ofRows run)
  rw [runOutput, Answer.bind_of_ok hvalues]
  refine congrArg Except.ok (List.map_congr_left fun p hp => ?_)
  obtain ⟨row, i⟩ := p
  have hrow : run[i]? = some row := List.mk_mem_zipIdx_iff_getElem?.mp hp
  have hi : i < run.length := (List.getElem?_eq_some_iff.mp hrow).1
  have hcolumn (fs : List (Frame σ)) : ((List.range run.length).map fun i =>
      (fs.map fun f => v f run i).flatten).getD i [] = (fs.map fun f => v f run i).flatten := by
    rw [List.getD_eq_getElem?_getD, List.getElem?_map, List.getElem?_range hi]
    rfl
  simp only [List.map_map, Function.comp_def, hcolumn]
  rw [List.map_flatten, List.flatten_flatten, List.map_map]
  rfl

/-- The output for some runs of conforming rows. -/
theorem runsOutput_eq {frames : List (List (Frame σ))} {v : Frame σ → List Row → Nat → Row}
    {runs : List (List Row)} (hframes : s.groups.mapM (Frame.ofGroup · registry) = .ok frames)
    (hnew : ∀ f ∈ frames.flatten, f.renew = f)
    (hv : ∀ run ∈ runs, ∀ f ∈ frames.flatten, f.Evaluates run (v f run)) :
    s.runsOutput registry runs = .ok (runs.flatMap (outputRows v frames.flatten)) := by
  have hruns : runs.mapM (s.runOutput registry) =
      .ok (runs.map (outputRows v frames.flatten)) := by
    rw [Answer.mapM_eq_ok_iff, List.map_map]
    exact List.map_congr_left fun run hrun => runOutput_eq hframes hnew (hv run hrun)
  rw [runsOutput, hruns]
  rfl

end WindowSpec

end SqlWindow
