import SqlWindow.Proofs.Preserves
import SqlWindow.Proofs.Row.Size
import SqlWindow.Proofs.Store.Calls

set_option autoImplicit false

/-! # What a store keeps in memory

A store has a budget of bytes. `RowStore.Keeps s rows` says how the rows that a store has taken lie
in it: those in memory are the longest prefix that the budget has room for, all others are in the
file, and there is a file exactly when the rows do not all fit.

This holds behind calls in any order, also when spill files can be created at some times and not at
others: `StoreAttempt` is a call together with whether one can be created while it is made.
-/

namespace SqlWindow

namespace RowStore

open SpillFile (Fits)

variable {s : RowStore} {rows : List Row} {row : Row}

/-- The error of a row that no record can hold. -/
theorem eq_of_append_eq_error {f : SpillFile} {e : Error} (h : f.append row = .error e) :
    e = .internal "row too large to spill" ∧ ¬Fits row := by
  by_cases hfits : Fits row
  · rw [SpillFile.append_eq_ok_of_fits f hfits] at h
    cases h
  · rw [SpillFile.append] at h
    rw [if_neg (show ¬(Record.encodeRow row).length < UInt32.size from hfits)] at h
    cases h
    exact ⟨rfl, hfits⟩

/-! ## Rows within a budget -/

/-- How the rows that a store has taken lie in it. A row that no record can hold is in memory or
nowhere. -/
structure Keeps (s : RowStore) (rows : List Row) : Prop where
  memoryUsed : s.memoryUsed = Row.totalSize s.rows.toList
  inMemory : Row.LongestWithin s.options.memory rows s.rows.toList
  isSpilled : s.isSpilled = true ↔ s.options.memory < Row.totalSize rows
  contents : s.Holds (s.rows.toList ++ (rows.drop s.rows.size).filter (Fits ·))

/-- The row is refused behind these rows: they are all in memory, it has no room there, and no
spill file can be created. -/
def Refuses (s : RowStore) (rows : List Row) (row : Row) : Prop :=
  s.canSpill = false ∧ Row.totalSize rows ≤ s.options.memory ∧
    s.options.memory < Row.totalSize (rows ++ [row])

theorem keeps_new (options : Options) (canSpill : Bool) : Keeps { options, canSpill } [] where
  memoryUsed := rfl
  inMemory := .self (Nat.zero_le _)
  isSpilled := ⟨nofun, fun h => absurd h (Nat.not_lt_zero _)⟩
  contents := holds_of_spill_eq_none rfl rfl

namespace Keeps

theorem spill_eq_none_iff (h : s.Keeps rows) :
    s.spill = none ↔ Row.totalSize rows ≤ s.options.memory := by
  rw [← Nat.not_lt, ← h.isSpilled, RowStore.isSpilled]
  cases s.spill <;> simp

/-- Without a file all rows are in memory. -/
theorem toList_rows (h : s.Keeps rows) (hspill : s.spill = none) : s.rows.toList = rows :=
  h.inMemory.eq (h.spill_eq_none_iff.mp hspill)

theorem memoryUsed_add_size (h : s.Keeps rows) (hspill : s.spill = none) (row : Row) :
    s.memoryUsed + row.size = Row.totalSize (rows ++ [row]) := by
  rw [h.memoryUsed, h.toList_rows hspill, Row.totalSize_concat]

theorem holds_file {f : SpillFile} (h : s.Keeps rows) (hspill : s.spill = some f) :
    f.Holds s.options.pageRows ((rows.drop s.rows.size).filter (Fits ·)) := by
  have hcontents := h.contents
  unfold Holds at hcontents
  simp only [hspill] at hcontents
  obtain ⟨spilled, heq, hf⟩ := hcontents
  rwa [List.append_cancel_left heq]

/-! ### Appending -/

theorem append_of_room (h : s.Keeps rows) (hspill : s.spill = none)
    (hroom : Row.totalSize (rows ++ [row]) ≤ s.options.memory) :
    Keeps { s with rows := s.rows.push row, memoryUsed := s.memoryUsed + row.size }
      (rows ++ [row]) := by
  have hrows : (s.rows.push row).toList = rows ++ [row] := by
    rw [Array.toList_push, h.toList_rows hspill]
  have hsize : (s.rows.push row).size = (rows ++ [row]).length := by
    rw [← Array.length_toList, hrows]
  refine ⟨?_, ?_, ?_, ?_⟩
  · show s.memoryUsed + row.size = _
    rw [hrows, h.memoryUsed_add_size hspill]
  · show Row.LongestWithin s.options.memory _ _
    rw [hrows]
    exact .self hroom
  · show s.spill.isSome = true ↔ s.options.memory < _
    rw [hspill]
    exact ⟨nofun, fun hover => absurd hroom (Nat.not_le.mpr hover)⟩
  · refine holds_of_spill_eq_none hspill ?_
    show _ ++ ((rows ++ [row]).drop (s.rows.push row).size).filter _ = _
    rw [hsize, List.drop_length, List.filter_nil, List.append_nil]

/-- A file with the row behind the others, where the rows do not all fit into memory. -/
theorem append_of_file {g : SpillFile} (h : s.Keeps rows)
    (hover : s.options.memory < Row.totalSize (rows ++ [row]))
    (hg : g.Holds s.options.pageRows
      ((rows.drop s.rows.size).filter (Fits ·) ++ [row].filter (Fits ·))) :
    Keeps { s with spill := some g } (rows ++ [row]) where
  memoryUsed := h.memoryUsed
  inMemory := h.inMemory.concat hover
  isSpilled := ⟨fun _ => hover, fun _ => rfl⟩
  contents := by
    have hle : s.rows.size ≤ rows.length := by
      rw [← Array.length_toList]
      exact h.inMemory.isPrefix.length_le
    refine holds_of_spill_eq_some rfl hg ?_
    rw [List.drop_append_of_le_length hle, List.filter_append]

/-- The row goes to the file, or nowhere when no record can hold it. -/
theorem appendToFile {f : SpillFile} (h : s.Keeps rows)
    (hover : s.options.memory < Row.totalSize (rows ++ [row]))
    (hf : f.Holds s.options.pageRows ((rows.drop s.rows.size).filter (Fits ·))) :
    ∃ r t, (RowStore.appendToFile f row).outcome s = (r, t) ∧
      r ≠ .error (spillUnavailable s.options) ∧ t.options = s.options ∧
      t.Keeps (rows ++ [row]) := by
  cases hg : f.append row with
  | ok g =>
    refine ⟨.ok (), _, Action.outcome_of_ok (appendToFile_ok hg s), nofun, rfl,
      h.append_of_file hover ?_⟩
    rw [List.filter_singleton, decide_eq_true (SpillFile.fits_of_append_eq_ok hg)]
    exact hf.append hg
  | error e =>
    obtain ⟨rfl, hfits⟩ := eq_of_append_eq_error hg
    refine ⟨_, _, Action.outcome_of_error (appendToFile_error hg s), nofun, rfl,
      h.append_of_file hover ?_⟩
    rwa [List.filter_singleton, decide_eq_false hfits, cond_false, List.append_nil]

/-- **Appending.** A row that is not refused is taken behind the others. -/
theorem append (h : s.Keeps rows) (htaken : ¬s.Refuses rows row) :
    ∃ r t, (RowStore.append row).outcome s = (r, t) ∧
      r ≠ .error (spillUnavailable s.options) ∧ t.options = s.options ∧
      t.Keeps (rows ++ [row]) := by
  rw [Action.outcome]
  cases hspill : s.spill with
  | some f =>
    have hover : s.options.memory < Row.totalSize rows :=
      h.isSpilled.mp (by rw [RowStore.isSpilled, hspill]; rfl)
    have hstep : RowStore.append row s = RowStore.appendToFile f row s := by
      rw [append_eq]
      simp only [hspill]
    rw [hstep]
    refine h.appendToFile ?_ (h.holds_file hspill)
    rw [Row.totalSize_concat]
    exact Nat.lt_add_right _ hover
  | none =>
    have hsize := h.memoryUsed_add_size hspill row
    by_cases hroom : s.memoryUsed + row.size ≤ s.options.memory
    · rw [RowStore.append_of_room hspill hroom]
      refine ⟨_, _, rfl, ?_, rfl, h.append_of_room hspill (hsize ▸ hroom)⟩
      simp
    · have hover : s.options.memory < Row.totalSize (rows ++ [row]) := hsize ▸ Nat.not_le.mp hroom
      have hcan : s.canSpill = true := by
        by_contra hcan
        exact htaken ⟨by simpa using hcan, h.spill_eq_none_iff.mp hspill, hover⟩
      have hstep : RowStore.append row s = RowStore.appendToFile {} row s := by
        rw [append_eq]
        simp only [hspill, if_neg hroom, if_pos hcan]
      rw [hstep]
      refine h.appendToFile hover ?_
      -- without a file no row is behind those in memory
      rw [← h.toList_rows hspill, ← Array.length_toList, List.drop_length]
      exact SpillFile.holds_empty _

theorem append_of_refuses (h : s.Keeps rows) (hrefuses : s.Refuses rows row) :
    (RowStore.append row).outcome s = (.error (spillUnavailable s.options), s) := by
  obtain ⟨hcan, hfit, hover⟩ := hrefuses
  have hspill := h.spill_eq_none_iff.mpr hfit
  refine Action.outcome_of_error ?_
  rw [append_eq]
  simp only [hspill, h.memoryUsed_add_size hspill]
  rw [if_neg (Nat.not_le.mpr hover), if_neg (by simp [hcan])]

end Keeps

/-! ### Reading -/

/-- The store is `s` up to what its file has written and kept. -/
def IsReread (s t : RowStore) : Prop :=
  ∃ spill, t = { s with spill } ∧ spill.isSome = s.spill.isSome

theorem isReread_getFromFile (hspill : s.spill.isSome = true) (f : SpillFile) (base index : Nat) :
    Action.Preserves s.IsReread (getFromFile f base index) := by
  have hfile (f : SpillFile) :
      Action.Preserves s.IsReread (modify ({ · with spill := some f })) := by
    refine .modify ?_
    rintro _ ⟨_, rfl, -⟩
    exact ⟨some f, rfl, hspill.symm⟩
  refine .get fun t _ => ?_
  dsimp only
  split
  · exact .pure _
  · refine (hfile _).bind fun _ => (Action.Preserves.ofExcept _).bind fun page => ?_
    split
    · exact (hfile _).bind fun _ => .pure _
    · exact .ofExcept (.error _)

/-- Reading a row, or trying to, leaves the rows in memory as they are. -/
theorem isReread_row (s : RowStore) (index : Nat) :
    Action.Preserves s.IsReread (RowStore.row index) := by
  refine .get fun t ht => ?_
  split
  · exact .pure _
  · split
    · rename_i f hspill
      obtain ⟨spill, rfl, hsome⟩ := ht
      replace hspill : spill = some f := hspill
      rw [hspill] at hsome
      split
      · exact isReread_getFromFile hsome.symm f _ index
      · exact .ofExcept (.error _)
    · exact .ofExcept (.error _)

theorem Keeps.outcome_row (h : s.Keeps rows) (index : Nat) :
    ((RowStore.row index).outcome s).2.options = s.options ∧
      ((RowStore.row index).outcome s).2.Keeps rows := by
  obtain ⟨spill, ht, hsome⟩ := isReread_row s index s ⟨s.spill, rfl, rfl⟩
  have hcontents := h.contents.outcome_row index
  rw [ht] at hcontents ⊢
  refine ⟨rfl, h.memoryUsed, h.inMemory, ?_, hcontents⟩
  show spill.isSome = true ↔ _
  rw [hsome]
  exact h.isSpilled

end RowStore

/-! ## Calls -/

/-- A call, and whether a spill file can be created while it is made. -/
structure StoreAttempt where
  canSpill : Bool
  call : StoreCall
deriving DecidableEq, Repr

namespace StoreAttempt

open SpillFile (Fits)

variable {options : Options} {s : RowStore} {rows : List Row}

/-- The call at its time. -/
def perform (attempt : StoreAttempt) : Action RowStore (Option Row) := do
  modify ({ · with canSpill := attempt.canSpill })
  attempt.call.perform

/-- The store behind a call, and the rows that it has taken since it was last emptied. A row is
taken unless its append fails for want of a spill file.

A row too large for a record counts as taken although its append fails too: the file it would go
to is created and stays, with nothing of the row in it, so that the row decides where all later rows
go. `StoreCall.next` leaves it out, for there the rows are those that the store answers with. -/
def next (state : RowStore × List Row) (attempt : StoreAttempt) : RowStore × List Row :=
  let after := attempt.perform.outcome state.1
  (after.2, match attempt.call, after.1 with
    | .append row, .error e =>
      if e = RowStore.spillUnavailable state.1.options then state.2 else state.2 ++ [row]
    | .append row, .ok _ => state.2 ++ [row]
    | .get _, _ => state.2
    | .release, _ => [])

/-- A new store behind some calls, and the rows that it has taken since it was last emptied. -/
def behind (options : Options) (attempts : List StoreAttempt) : RowStore × List Row :=
  attempts.foldl next ({ options }, [])

/-- What can be created matters only to later appends. -/
theorem keeps_withCanSpill (h : s.Keeps rows) (canSpill : Bool) :
    RowStore.Keeps { s with canSpill } rows :=
  ⟨h.memoryUsed, h.inMemory, h.isSpilled, h.contents⟩

theorem perform_append_of_refuses {canSpill : Bool} {row : Row} (h : s.Keeps rows)
    (hrefuses : RowStore.Refuses { s with canSpill } rows row) :
    (perform ⟨canSpill, .append row⟩).outcome s =
      (.error (RowStore.spillUnavailable s.options), { s with canSpill }) := by
  have happend := (keeps_withCanSpill h canSpill).append_of_refuses hrefuses
  have hanswer := Action.outcome_bind_pure (RowStore.append row) (fun _ => (none : Option Row))
    { s with canSpill }
  rw [happend] at hanswer
  exact hanswer

theorem perform_append {canSpill : Bool} {row : Row} (h : s.Keeps rows)
    (htaken : ¬RowStore.Refuses { s with canSpill } rows row) :
    ∃ r t, (perform ⟨canSpill, .append row⟩).outcome s = (r, t) ∧
      r ≠ .error (RowStore.spillUnavailable s.options) ∧ t.options = s.options ∧
      t.Keeps (rows ++ [row]) := by
  obtain ⟨r, t, happend, hother, ht⟩ := (keeps_withCanSpill h canSpill).append htaken
  have hanswer := Action.outcome_bind_pure (RowStore.append row) (fun _ => (none : Option Row))
    { s with canSpill }
  rw [happend] at hanswer
  refine ⟨_, t, hanswer, ?_, ht⟩
  cases r with
  | ok a => exact nofun
  | error e => exact fun he => hother (congrArg Except.error (Except.error.inj he))

/-- **One call.** -/
theorem keeps_next (h : s.options = options ∧ s.Keeps rows) (attempt : StoreAttempt) :
    (next (s, rows) attempt).1.options = options ∧
      (next (s, rows) attempt).1.Keeps (next (s, rows) attempt).2 := by
  obtain ⟨rfl, h⟩ := h
  obtain ⟨canSpill, call⟩ := attempt
  cases call with
  | append row =>
    by_cases hrefuses : RowStore.Refuses { s with canSpill } rows row
    · rw [next, perform_append_of_refuses h hrefuses]
      refine ⟨rfl, ?_⟩
      show RowStore.Keeps _ (ite _ _ _)
      rw [if_pos rfl]
      exact keeps_withCanSpill h canSpill
    · obtain ⟨r, t, hr, hother, ht⟩ := perform_append h hrefuses
      rw [next, hr]
      cases r with
      | ok a => exact ht
      | error e =>
        have htakes : e ≠ RowStore.spillUnavailable s.options := fun he =>
          hother (congrArg Except.error he)
        show t.options = _ ∧ t.Keeps (ite _ _ _)
        rw [if_neg htakes]
        exact ht
  | get index =>
    have hanswer := Action.outcome_bind_pure (RowStore.row index) some { s with canSpill }
    rw [next, show (perform ⟨canSpill, .get index⟩).outcome s = _ from hanswer]
    exact (keeps_withCanSpill h canSpill).outcome_row index
  | release => exact ⟨rfl, RowStore.keeps_new s.options canSpill⟩

/-- **All calls.** -/
theorem keeps_behind (options : Options) (attempts : List StoreAttempt) :
    (behind options attempts).1.options = options ∧
      (behind options attempts).1.Keeps (behind options attempts).2 := by
  unfold behind
  generalize hstate : (({ options }, []) : RowStore × List Row) = state
  have hkeeps : state.1.options = options ∧ state.1.Keeps state.2 := by
    rw [← hstate]
    exact ⟨rfl, RowStore.keeps_new options true⟩
  clear hstate
  induction attempts generalizing state with
  | nil => exact hkeeps
  | cons attempt attempts ih => exact ih (next state attempt) (keeps_next hkeeps attempt)

/-- **Rows within a budget.** Take a new store behind any calls, each made while a spill file can or
cannot be created, and the rows that it has taken since it was last emptied. It is charged with the
rows in memory, and they are the longest prefix that the budget has room for. There is a file
exactly when the rows do not all fit, and in it are those behind the rows in memory, but for a row
that no record can hold. Emptied, the store is a new one. An append fails for want of a file exactly
when the row is the first without room and no file can be created, and it leaves all as it was. -/
theorem rows_within_budget (options : Options) (attempts : List StoreAttempt) :
    let s := (behind options attempts).1
    let rows := (behind options attempts).2
    (s.memoryUsed = Row.totalSize s.rows.toList ∧ s.memoryUsed ≤ options.memory) ∧
    Row.LongestWithin options.memory rows s.rows.toList ∧
    (s.isSpilled = true ↔ options.memory < Row.totalSize rows) ∧
    (s.isSpilled = true ↔ ∃ f, s.spill = some f ∧
      f.Holds options.pageRows ((rows.drop s.rows.size).filter (Fits ·))) ∧
    ∀ canSpill,
      (perform ⟨canSpill, .release⟩).outcome s = (.ok none, { options, canSpill }) ∧
      ∀ row,
        let after := (perform ⟨canSpill, .append row⟩).outcome s
        (after.1 = .error (RowStore.spillUnavailable options) ↔
          canSpill = false ∧ Row.totalSize rows ≤ options.memory ∧
            options.memory < Row.totalSize (rows ++ [row])) ∧
        (after.1 = .error (RowStore.spillUnavailable options) → after.2 = { s with canSpill }) := by
  intro s rows
  obtain ⟨hoptions, h⟩ := keeps_behind options attempts
  rw [← hoptions]
  refine ⟨⟨h.memoryUsed, h.memoryUsed ▸ h.inMemory.within⟩, h.inMemory, h.isSpilled, ?_, ?_⟩
  · refine ⟨fun hspilled => ?_, ?_⟩
    · obtain ⟨f, hf⟩ := Option.isSome_iff_exists.mp hspilled
      exact ⟨f, hf, h.holds_file hf⟩
    · rintro ⟨f, hf, -⟩
      exact Option.isSome_iff_exists.mpr ⟨f, hf⟩
  · intro canSpill
    refine ⟨rfl, fun row => ?_⟩
    by_cases hrefuses : RowStore.Refuses { s with canSpill } rows row
    · have hafter := perform_append_of_refuses h hrefuses
      exact ⟨⟨fun _ => hrefuses, fun _ => congrArg Prod.fst hafter⟩,
        fun _ => congrArg Prod.snd hafter⟩
    · obtain ⟨r, t, hafter, hother, -⟩ := perform_append h hrefuses
      have hnot := fun he => hother ((congrArg Prod.fst hafter).symm.trans he)
      exact ⟨⟨fun he => absurd he hnot, fun h => absurd h hrefuses⟩, fun he => absurd he hnot⟩

/-- A budget of 150 bytes. Two rows of 48 bytes fit, and the third would need a file that cannot be
created; it leaves all as it was, and an empty row of 24 bytes still fits. The next row opens a
file, and from then on the empty row, which would fit, goes there too. -/
theorem rows_within_budget_of_150_bytes :
    let early : List StoreAttempt := [⟨true, .append [.integer 1]⟩, ⟨true, .append [.integer 2]⟩]
    let refused : StoreAttempt := ⟨false, .append [.text "abcdefg"]⟩
    let late : List StoreAttempt := [⟨false, .append []⟩, ⟨true, .append [.integer 3]⟩,
      ⟨false, .get 3⟩, ⟨false, .append []⟩]
    let s := (behind { memory := 150 } early).1
    let t := (behind { memory := 150 } (early ++ refused :: late)).1
    refused.perform.outcome s =
      (.error (RowStore.spillUnavailable { memory := 150 }), { s with canSpill := false }) ∧
    Row.LongestWithin 150 [[.integer 1], [.integer 2], [], [.integer 3], []]
      [[.integer 1], [.integer 2], []] ∧
    t.memoryUsed = Row.totalSize [[.integer 1], [.integer 2], []] ∧
    (∃ f, t.spill = some f ∧ f.Holds 1024 [[.integer 3], []]) ∧
    (perform ⟨true, .release⟩).outcome t = (.ok none, { options := { memory := 150 } }) := by
  intro early refused late s t
  have hearly : (behind { memory := 150 } early).2 = [[.integer 1], [.integer 2]] := rfl
  have hrows : (behind { memory := 150 } (early ++ refused :: late)).2 =
      [[.integer 1], [.integer 2], [], [.integer 3], []] := by
    decide +kernel
  have hmemory : (behind { memory := 150 } (early ++ refused :: late)).1.rows.toList =
      [[.integer 1], [.integer 2], []] := by
    decide +kernel
  have hspilled : t.isSpilled = true := by decide +kernel
  obtain ⟨-, -, -, -, hnext⟩ := rows_within_budget { memory := 150 } early
  obtain ⟨⟨hused, -⟩, hlongest, -, hfile, hafter⟩ :=
    rows_within_budget { memory := 150 } (early ++ refused :: late)
  rw [hrows, hmemory] at hlongest
  rw [hmemory] at hused
  rw [hrows, ← Array.length_toList, hmemory] at hfile
  refine ⟨?_, hlongest, hused, hfile.mp hspilled, (hafter true).1⟩
  obtain ⟨hfails, hleaves⟩ := (hnext false).2 [.text "abcdefg"]
  rw [hearly] at hfails
  have herror := hfails.mpr ⟨rfl, by decide, by decide⟩
  exact Prod.ext herror (hleaves herror)

end StoreAttempt

end SqlWindow
