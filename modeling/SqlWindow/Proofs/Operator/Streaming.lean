import Mathlib.Data.List.Forall2
import SqlWindow.Proofs.Operator.Execute
import SqlWindow.Proofs.Operator.Mirror

set_option autoImplicit false

/-! # Streaming and collecting

A specification whose groups all look at the current row alone is answered row by row. One group
over the whole partition, added behind them, makes the operator collect partitions: it resets its
functions at other moments, tells them another number of rows, and gives its rows out later. The
values of the groups that were there before are the same values all the same.
-/

namespace SqlWindow

variable {σ : Type} {types : List DataType}

/-! ## Groups -/

namespace WindowGroup

/-- A ROWS frame under an ordering that is the current row alone, over calls that do not depend on
the number of rows. -/
structure IsCurrentRow (registry : Registry σ) (g : WindowGroup) : Prop where
  mode : g.mode = .row
  lower : g.lower = .currentRow
  upper : g.upper = .currentRow
  calls : ∀ c ∈ g.calls, c.needsWindowSize registry = false

/-- A frame that is the whole partition: nothing orders it, or it has no bound on either side. -/
def IsWholePartition (g : WindowGroup) : Prop :=
  g.mode = .insensitive ∨
    g.mode ≠ .offset ∧ g.lower = .unboundedPreceding ∧ g.upper = .unboundedFollowing

variable {g : WindowGroup} {registry : Registry σ}

theorem IsCurrentRow.needsBuffering_eq_false (h : g.IsCurrentRow registry) :
    g.needsBuffering registry = false := by
  have hcalls : g.calls.any (·.needsWindowSize registry) = false :=
    List.any_eq_false.mpr fun c hc => by simp [h.calls c hc]
  rw [needsBuffering, hcalls, h.mode, h.lower, h.upper]
  rfl

theorem IsWholePartition.needsBuffering_eq_true (h : g.IsWholePartition) :
    g.needsBuffering registry = true := by
  rw [needsBuffering, Bool.or_eq_true]
  right
  rcases h with hmode | ⟨-, hlower, -⟩
  · rw [hmode]
    rfl
  · rw [hlower]
    simp

theorem IsWholePartition.mode_ne_offset (h : g.IsWholePartition) : g.mode ≠ .offset := by
  rcases h with hmode | ⟨hmode, -⟩
  · rw [hmode]
    nofun
  · exact hmode

end WindowGroup

/-! ## One more group -/

/-- Rows that are front parts of others are what these have in front. -/
theorem Row.map_take_of_forall₂ {n : Nat} {front rows : List Row}
    (hfront : ∀ row ∈ front, row.length = n) (h : List.Forall₂ (· <+: ·) front rows) :
    rows.map (·.take n) = front := by
  induction h with
  | nil => rfl
  | @cons a b front rows hab _ ih =>
    rw [List.forall_mem_cons] at hfront
    rw [List.map_cons, ih hfront.2, ← hfront.1, ← List.prefix_iff_eq_take.mp hab]

namespace WindowSpec

variable {s : WindowSpec} {G : WindowGroup} {registry : Registry σ}

/-- The specification with one more group behind the others. -/
def withGroup (s : WindowSpec) (G : WindowGroup) : WindowSpec := ⟨s.groups ++ [G]⟩

/-- The input is cut as before. -/
theorem runs_withGroup (h : s.groups ≠ []) (G : WindowGroup) (input : List Row) :
    (s.withGroup G).runs input = s.runs input := by
  obtain ⟨g, rest, hgroups⟩ := List.exists_cons_of_ne_nil h
  have hpartition : (s.withGroup G).partition = s.partition := by
    unfold partition withGroup
    rw [hgroups]
    rfl
  unfold runs joins
  rw [hpartition]

/-- The values of the last group stand behind those of the others. -/
theorem exists_runOutput_of_withGroup {run out : List Row}
    (h : (s.withGroup G).runOutput registry run = .ok out) :
    ∃ out₀, s.runOutput registry run = .ok out₀ ∧ List.Forall₂ (· <+: ·) out₀ out := by
  obtain ⟨values, hvalues, hout⟩ := Answer.ok_of_bind_ok h
  rw [withGroup, List.mapM_append] at hvalues
  obtain ⟨values₀, hvalues₀, hlast⟩ := Answer.ok_of_bind_ok hvalues
  obtain ⟨vs, -, hvs⟩ := Answer.ok_of_bind_ok hlast
  cases hvs
  cases hout
  refine ⟨_, by rw [runOutput, Answer.bind_of_ok hvalues₀]; rfl, ?_⟩
  rw [List.forall₂_map_left_iff, List.forall₂_map_right_iff, List.forall₂_same]
  rintro ⟨row, i⟩ -
  dsimp only
  rw [List.map_append, List.flatten_append, ← List.append_assoc]
  exact List.prefix_append _ _

/-- **A group that is added** behind the others changes nothing in what they give. -/
theorem exists_runsOutput_of_withGroup {runs : List (List Row)} {out : List Row}
    (h : (s.withGroup G).runsOutput registry runs = .ok out) :
    ∃ out₀, s.runsOutput registry runs = .ok out₀ ∧ List.Forall₂ (· <+: ·) out₀ out := by
  obtain ⟨outs, houts, rfl⟩ := Answer.map_eq_ok_iff.mp h
  clear h
  induction runs generalizing outs with
  | nil =>
    cases houts
    exact ⟨[], rfl, .nil⟩
  | cons run runs ih =>
    rw [List.mapM_cons] at houts
    obtain ⟨first, hfirst, houts⟩ := Answer.ok_of_bind_ok houts
    obtain ⟨rest, hrest, houts⟩ := Answer.ok_of_bind_ok houts
    cases houts
    obtain ⟨first₀, hfirst₀, hprefix⟩ := exists_runOutput_of_withGroup hfirst
    obtain ⟨rest₀, hrest₀, hprefixes⟩ := ih rest hrest
    obtain ⟨outs₀, houts₀, rfl⟩ := Answer.map_eq_ok_iff.mp hrest₀
    refine ⟨(first₀ :: outs₀).flatten, Answer.map_eq_ok_iff.mpr ⟨_, ?_, rfl⟩, ?_⟩
    · rw [List.mapM_cons, Answer.bind_of_ok hfirst₀, Answer.bind_of_ok houts₀]
      rfl
    · rw [List.flatten_cons, List.flatten_cons]
      exact List.rel_append hprefix hprefixes

end WindowSpec

/-! ## The values of a row -/

namespace WindowOperator

variable {spec : WindowSpec} {G : WindowGroup} {registry : Registry σ}

theorem length_of_forwardFrame {g : WindowGroup} {f : Forward (CallTally σ)}
    (h : forwardFrame registry g = .ok f) : f.tally.slots.length = g.calls.length := by
  obtain ⟨t, ht, hf⟩ := Answer.ok_of_bind_ok h
  cases hf
  exact CallTally.length_of_ofCalls ht

/-- The frames together have a value for each call of the specification. -/
theorem length_flatMap_slots {fs : List (Forward (CallTally σ))}
    (h : spec.groups.mapM (forwardFrame registry) = .ok fs) :
    (fs.flatMap fun f => f.tally.slots).length = spec.arity := by
  have hok := Answer.mapM_eq_ok_iff.mp
    (Answer.mapM_eq_ok_map h fun g _ f hf _ => congrArg Except.ok (length_of_forwardFrame hf).symm)
  have hinjective : Function.Injective (List.map (Except.ok : Nat → Except Error Nat)) :=
    List.map_injective_iff.mpr fun _ _ => Except.ok.inj
  rw [WindowSpec.arity, List.length_flatMap, List.length_flatMap,
    hinjective (List.map_map.trans hok)]

/-- The values of a row, frame by frame. -/
def rowAnswer (fs : List (Forward (CallTally σ))) (row : Row) : Row :=
  (fs.map fun f => f.tally.rowValues row).flatten

theorem length_rowAnswer {fs : List (Forward (CallTally σ))} (hfs : ∀ f ∈ fs, f.IsRowwise types)
    (h : spec.groups.mapM (forwardFrame registry) = .ok fs) {row : Row}
    (hrow : Row.Conforms row types) : (rowAnswer fs row).length = spec.arity := by
  rw [rowAnswer, ← List.flatMap_def, ← length_flatMap_slots h, List.length_flatMap,
    List.length_flatMap]
  refine congrArg List.sum (List.map_congr_left fun f hf => ?_)
  exact (hfs f hf).isInsensitive.length_rowValues (hfs f hf).isFramed hrow

/-! ## Operators -/

/-- The operator of groups of the current row gives behind each row a function of this row. -/
theorem exists_streaming (hcheck : spec.check types (Registry.builtin : Registry σ) = .ok ())
    (hcurrent : ∀ g ∈ spec.groups, g.IsCurrentRow (Registry.builtin : Registry σ))
    (options : Options) (canSpill : Bool) :
    ∃ op : RowByRow σ, ofSpec spec types options canSpill Registry.builtin = .ok (rowByRow op) ∧
      ∃ answer : Row → Row,
        (∀ row, Row.Conforms row types → (answer row).length = spec.arity) ∧
        ∀ input, (∀ row ∈ input, Row.Conforms row types) →
          (∃ op', execute input (rowByRow op) = .ok (input.map fun row => row ++ answer row) op') ∧
          spec.runsOutput (Registry.builtin : Registry σ) (spec.runs input) =
            .ok (input.map fun row => row ++ answer row) := by
  have hneeds : spec.needsBuffering (Registry.builtin : Registry σ) = false :=
    List.any_eq_false.mpr fun g hg => by simp [(hcurrent g hg).needsBuffering_eq_false]
  obtain ⟨fs, hfs, hframes, hofSpec⟩ := exists_ofSpec_rowByRow hcheck hneeds options
  have hfields := WindowSpec.exists_fieldType_of_check hcheck
  -- the operator has its frames from the groups, whatever the options
  obtain ⟨-, ⟨hneeds', -⟩ | ⟨-, fs', hforward, heq⟩⟩ := ofSpec_eq_ok_iff.mp hofSpec
  · rw [hneeds] at hneeds'
    cases hneeds'
  · cases heq
    refine ⟨_, ofSpec_eq_ok_iff.mpr ⟨hcheck, .inr ⟨hneeds, fs, hforward, rfl⟩⟩, rowAnswer fs,
      fun row hrow => length_rowAnswer hfs hforward hrow, fun input hinput => ?_⟩
    have hnew : fs.map Forward.renew = fs := map_eq_self fun f hf => (hfs f hf).renew_eq
    exact ⟨exists_execute_eq_map hfs hfields ⟨⟨hnew, rfl⟩, rfl⟩ hinput,
      runsOutput_of_isRowwise hfs hframes hinput⟩

/-- What the operator that collects partitions for groups without lookups gives is what the
specification gives, and it succeeds where all rows fit into records and files can be created. -/
theorem exists_collecting (hcheck : spec.check types (Registry.builtin : Registry σ) = .ok ())
    (hneeds : spec.needsBuffering (Registry.builtin : Registry σ) = true)
    (hmode : ∀ g ∈ spec.groups, g.mode ≠ .offset) (options : Options) (canSpill : Bool) :
    ∃ op : ByPartition σ,
      ofSpec spec types options canSpill Registry.builtin = .ok (byPartition op) ∧
      ∀ input, (∀ row ∈ input, Row.Conforms row types) →
        (∀ out op', execute input (byPartition op) = .ok out op' →
          spec.runsOutput (Registry.builtin : Registry σ) (spec.runs input) = .ok out) ∧
        (canSpill = true → (∀ row ∈ input, SpillFile.Fits row) →
          ∃ out op', execute input (byPartition op) = .ok out op') := by
  obtain ⟨frames, v, hready, hframes, ha, -⟩ :=
    exists_ofSpec_of_needsBuffering hcheck hneeds (fun g hg h => absurd h (hmode g hg)) options
  have hnew : ∀ f ∈ frames.flatten, f.renew = f := fun f hf => (hready f hf).renew_eq
  have hempty : RowStore.Holds { options, canSpill } [] := RowStore.holds_of_spill_eq_none rfl rfl
  have hidle : ByPartition.IsIdle frames.flatten spec.partition { options, canSpill }
      { frames := frames.flatten, partition := spec.partition, store := { options, canSpill } } :=
    ⟨⟨map_eq_self hnew, rfl, ⟨[], hempty⟩, .refl _⟩, rfl, hempty⟩
  refine ⟨_, ofSpec_eq_ok_iff.mpr ⟨hcheck, .inl ⟨hneeds, frames, hframes, rfl⟩⟩,
    fun input hinput => ⟨fun out op' h => ?_, ?_⟩⟩
  · exact runsOutput_of_execute_byPartition hframes hnew ha hidle hinput h
  · rintro rfl hfits
    obtain ⟨out, op', hexecute, -⟩ := (exists_execute_byPartition hframes hnew ha hidle
      fun row hrow => ⟨hinput row hrow, hfits row hrow⟩).1
    exact ⟨out, op', hexecute⟩

/-- **Collecting partitions does not show.** Let all groups of an accepted specification look at the
current row alone. Its operator streams: it gives out every row of a conforming input with values
that are a function of this row. With a group over the whole partition behind them the operator
collects partitions. Whatever it gives, each row has in front what the operator that streams gives
for it, however the input falls into partitions; and it gives all of them where the rows fit into
records and files can be created. -/
theorem execute_currentRow_withGroup
    (hcurrent : ∀ g ∈ spec.groups, g.IsCurrentRow (Registry.builtin : Registry σ))
    (hG : G.IsWholePartition)
    (hcheck : spec.check types (Registry.builtin : Registry σ) = .ok ())
    (hcheckG : (spec.withGroup G).check types (Registry.builtin : Registry σ) = .ok ())
    (options options' : Options) (canSpill canSpill' : Bool) :
    ∃ streaming buffered : WindowOperator σ,
      ofSpec spec types options canSpill Registry.builtin = .ok streaming ∧
      ofSpec (spec.withGroup G) types options' canSpill' Registry.builtin = .ok buffered ∧
      streaming.isBuffered = false ∧ buffered.isBuffered = true ∧
      ∃ answer : Row → Row,
        (∀ row, Row.Conforms row types → (answer row).length = spec.arity) ∧
        ∀ input, (∀ row ∈ input, Row.Conforms row types) →
          (∃ op', execute input streaming = .ok (input.map fun row => row ++ answer row) op') ∧
          (∀ out op', execute input buffered = .ok out op' →
            out.map (·.take (types.length + spec.arity)) =
              input.map fun row => row ++ answer row) ∧
          (canSpill' = true → (∀ row ∈ input, SpillFile.Fits row) →
            ∃ out op', execute input buffered = .ok out op') := by
  have hne : spec.groups ≠ [] := by
    obtain ⟨⟨g, hg, -⟩, -⟩ := WindowSpec.accepted_of_check hcheck
    exact List.ne_nil_of_mem hg
  have hneeds : (spec.withGroup G).needsBuffering (Registry.builtin : Registry σ) = true :=
    List.any_eq_true.mpr
      ⟨G, List.mem_append_right _ List.mem_cons_self, hG.needsBuffering_eq_true⟩
  have hmode : ∀ g ∈ (spec.withGroup G).groups, g.mode ≠ .offset := by
    refine List.forall_mem_append.mpr
      ⟨fun g hg => ?_, List.forall_mem_singleton.mpr hG.mode_ne_offset⟩
    rw [(hcurrent g hg).mode]
    nofun
  obtain ⟨streaming, hstreaming, answer, hlength, hanswer⟩ :=
    exists_streaming hcheck hcurrent options canSpill
  obtain ⟨buffered, hbuffered, hcollect⟩ :=
    exists_collecting hcheckG hneeds hmode options' canSpill'
  refine ⟨_, _, hstreaming, hbuffered, rfl, rfl, answer, hlength, fun input hinput => ?_⟩
  obtain ⟨hexecute, houtput⟩ := hanswer input hinput
  obtain ⟨hcollected, hsucceeds⟩ := hcollect input hinput
  refine ⟨hexecute, fun out op' h => ?_, hsucceeds⟩
  obtain ⟨out₀, hout₀, hprefix⟩ :=
    WindowSpec.exists_runsOutput_of_withGroup (hcollected out op' h)
  rw [WindowSpec.runs_withGroup hne, houtput] at hout₀
  cases hout₀
  refine Row.map_take_of_forall₂ (List.forall_mem_map.mpr fun row hrow => ?_) hprefix
  rw [List.length_append, (hinput row hrow).1, hlength row (hinput row hrow)]

/-- `SUM($1)`, `MIN($1)` and `COUNT(*)` of the current row, partitioned by `$0`. -/
def ofCurrentRow : WindowSpec where
  groups :=
    [{ partition := [0], sort := [⟨1, true⟩], unit := .rows, lower := .currentRow,
       upper := .currentRow,
       calls := [.make "SUM" [.field 1], .make "MIN" [.field 1], .make "COUNT" []] }]

/-- `COUNT(*)` of the partition. -/
def ofPartition : WindowGroup where
  partition := [0]
  calls := [.make "COUNT" []]

/-- Two partitions, with a negative zero, a tenth and a NULL. -/
def floats : List Row :=
  [[.integer 1, .float (.zero true)], [.integer 1, .float ⟨0x3FB999999999999A⟩],
    [.integer 2, .unknown]]

/-- The second operator keeps its rows in a file. -/
theorem execute_currentRow_withGroup_floats :
    ∃ (streaming buffered streaming' buffered' : WindowOperator Empty) (answer : Row → Row)
      (out : List Row),
      ofSpec ofCurrentRow [.integer, .float] {} true Registry.builtin = .ok streaming ∧
      ofSpec (ofCurrentRow.withGroup ofPartition) [.integer, .float] { memory := 0, pageRows := 1 }
        true Registry.builtin = .ok buffered ∧
      streaming.isBuffered = false ∧ buffered.isBuffered = true ∧
      execute floats streaming = .ok (floats.map fun row => row ++ answer row) streaming' ∧
      execute floats buffered = .ok out buffered' ∧
      out.map (·.take 5) = floats.map fun row => row ++ answer row := by
  have hcurrent : ∀ g ∈ ofCurrentRow.groups, g.IsCurrentRow (Registry.builtin : Registry Empty) :=
    List.forall_mem_singleton.mpr ⟨rfl, rfl, rfl, by decide +kernel⟩
  obtain ⟨streaming, buffered, hstreaming, hbuffered, hfalse, htrue, answer, -, h⟩ :=
    @execute_currentRow_withGroup Empty [.integer, .float] ofCurrentRow ofPartition hcurrent
      (.inl rfl) rfl rfl {} { memory := 0, pageRows := 1 } true true
  obtain ⟨⟨streaming', hexecute⟩, hcollected, hsucceeds⟩ := h floats (by decide)
  obtain ⟨out, buffered', hexecute'⟩ := hsucceeds rfl (by decide)
  exact ⟨streaming, buffered, streaming', buffered', answer, out, hstreaming, hbuffered, hfalse,
    htrue, hexecute, hexecute', hcollected out buffered' hexecute'⟩

end WindowOperator

end SqlWindow
