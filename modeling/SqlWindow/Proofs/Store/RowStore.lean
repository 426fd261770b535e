import SqlWindow.Proofs.Action
import SqlWindow.Proofs.Store.SpillFile
import SqlWindow.Store.RowStore

set_option autoImplicit false

/-! # The rows of a store

`RowStore.Holds s rows` says that the store `s` is sound and that its rows, those in memory and
those in the file one behind the other, are `rows`. Every action on a store is described by what
it does to this list: appending adds a row at the end or, when it fails, changes nothing;
releasing leaves the empty list; reading answers with the row at the position and changes
nothing, whatever pages it reads, keeps or drops on the way.
-/

namespace SqlWindow

namespace RowStore

/-- The store is sound and its rows are `rows`. -/
def Holds (s : RowStore) (rows : List Row) : Prop :=
  match s.spill with
  | none => rows = s.rows.toList
  | some f => ∃ spilled, rows = s.rows.toList ++ spilled ∧ f.Holds s.options.pageRows spilled

/-- The store differs in nothing that decides what later actions answer, its rows apart. -/
def SameSetup (s t : RowStore) : Prop := t.options = s.options ∧ t.canSpill = s.canSpill

variable {s : RowStore} {rows : List Row}

theorem holds_of_spill_eq_none (h : s.spill = none) (hrows : rows = s.rows.toList) :
    s.Holds rows := by
  unfold Holds
  rw [h]
  exact hrows

theorem holds_of_spill_eq_some {f : SpillFile} {spilled : List Row} (h : s.spill = some f)
    (hf : f.Holds s.options.pageRows spilled) (hrows : rows = s.rows.toList ++ spilled) :
    s.Holds rows := by
  unfold Holds
  rw [h]
  exact ⟨spilled, hrows, hf⟩

theorem Holds.length_eq (h : s.Holds rows) : s.length = rows.length := by
  unfold Holds at h
  unfold length
  split at h
  · rename_i hspill
    rw [hspill, h, Array.length_toList, Nat.add_zero]
  · rename_i f hspill
    obtain ⟨spilled, rfl, hf⟩ := h
    rw [hspill, List.length_append, Array.length_toList, ← hf.length]
    rfl

theorem Holds.isEmpty_iff (h : s.Holds rows) : s.isEmpty = true ↔ rows = [] := by
  rw [isEmpty, h.length_eq, beq_iff_eq, List.length_eq_zero_iff]

theorem SameSetup.release_eq {s t : RowStore} (h : s.SameSetup t) : t.release = s.release := by
  simp only [release, h.1, h.2]

theorem holds_release (s : RowStore) : s.release.Holds [] :=
  holds_of_spill_eq_none rfl rfl

/-! ## Appending -/

theorem appendToFile_ok {f g : SpillFile} {row : Row} (h : f.append row = .ok g) (s : RowStore) :
    appendToFile f row s = .ok () { s with spill := some g } := by
  show (Action.ofExcept (f.append row) >>= _) { s with spill := some f } = _
  rw [h]
  rfl

theorem appendToFile_error {f : SpillFile} {row : Row} {e : Error} (h : f.append row = .error e)
    (s : RowStore) : appendToFile f row s = .error e { s with spill := some f } := by
  show (Action.ofExcept (f.append row) >>= _) { s with spill := some f } = _
  rw [h]
  rfl

/-- A row goes to the file there is; else to memory while the budget lasts; else to a new file,
if one can be created. -/
theorem append_eq (s : RowStore) (row : Row) :
    append row s =
      match s.spill with
      | some f => appendToFile f row s
      | none =>
        if s.memoryUsed + row.size ≤ s.options.memory then
          .ok () { s with rows := s.rows.push row, memoryUsed := s.memoryUsed + row.size }
        else if s.canSpill then appendToFile {} row s
        else .error (spillUnavailable s.options) s := by
  show (match s.spill with
    | some f => appendToFile f row
    | none => _ : Action RowStore Unit) s = _
  cases s.spill with
  | some f => rfl
  | none =>
    show (ite _ _ _ : Action RowStore Unit) s = _
    by_cases hmemory : s.memoryUsed + row.size ≤ s.options.memory
    · rw [if_pos hmemory, if_pos hmemory]
      rfl
    · rw [if_neg hmemory, if_neg hmemory]
      by_cases hcan : s.canSpill
      · rw [if_pos hcan, if_pos hcan]
      · rw [if_neg hcan, if_neg hcan]
        rfl

/-- A row for which there is room goes to memory. -/
theorem append_of_room {row : Row} (hspill : s.spill = none)
    (hroom : s.memoryUsed + row.size ≤ s.options.memory) :
    append row s =
      .ok () { s with rows := s.rows.push row, memoryUsed := s.memoryUsed + row.size } := by
  rw [append_eq]
  simp only [hspill, if_pos hroom]

/-- What an append leaves behind: the rows with one more when it succeeded, the rows as they
were when it failed. -/
def Appended (s : RowStore) (rows : List Row) (row : Row) :
    EStateM.Result Error RowStore Unit → Prop
  | .ok () t => t.Holds (rows ++ [row]) ∧ s.SameSetup t
  | .error _ t => t.Holds rows ∧ s.SameSetup t

theorem appended_appendToFile {f : SpillFile} {spilled : List Row} (row : Row)
    (hf : f.Holds s.options.pageRows spilled) (hrows : rows = s.rows.toList ++ spilled) :
    Appended s rows row (appendToFile f row s) := by
  cases hg : f.append row with
  | ok g =>
    rw [appendToFile_ok hg]
    refine ⟨holds_of_spill_eq_some rfl (hf.append hg) ?_, rfl, rfl⟩
    rw [hrows, List.append_assoc]
  | error e =>
    rw [appendToFile_error hg]
    exact ⟨holds_of_spill_eq_some rfl hf hrows, rfl, rfl⟩

/-- **Appending.** The row is behind the others; when it cannot be taken in, nothing changes. -/
theorem Holds.append (h : s.Holds rows) (row : Row) : Appended s rows row (append row s) := by
  have hsplit := h
  unfold Holds at hsplit
  rw [append_eq]
  cases hspill : s.spill with
  | some f =>
    rw [hspill] at hsplit
    obtain ⟨spilled, hrows, hf⟩ := hsplit
    exact appended_appendToFile row hf hrows
  | none =>
    rw [hspill] at hsplit
    show Appended s rows row (ite _ _ _)
    by_cases hmemory : s.memoryUsed + row.size ≤ s.options.memory
    · rw [if_pos hmemory]
      refine ⟨holds_of_spill_eq_none rfl ?_, rfl, rfl⟩
      rw [hsplit, Array.toList_push]
    · rw [if_neg hmemory]
      by_cases hcan : s.canSpill
      · rw [if_pos hcan]
        refine appended_appendToFile row (SpillFile.holds_empty _) ?_
        rw [hsplit, List.append_nil]
      · rw [if_neg hcan]
        exact ⟨h, rfl, rfl⟩

/-- Appending succeeds where a file can be created and the row fits into a record. -/
theorem append_succeeds (s : RowStore) {row : Row} (hcan : s.canSpill)
    (hfits : SpillFile.Fits row) : ∃ t, append row s = .ok () t := by
  rw [append_eq]
  cases s.spill with
  | some f => exact ⟨_, appendToFile_ok (SpillFile.append_eq_ok_of_fits f hfits) s⟩
  | none =>
    show ∃ t, ite _ _ _ = _
    by_cases hmemory : s.memoryUsed + row.size ≤ s.options.memory
    · exact ⟨_, if_pos hmemory⟩
    · rw [if_neg hmemory, if_pos hcan]
      exact ⟨_, appendToFile_ok (SpillFile.append_eq_ok_of_fits {} hfits) s⟩

/-- A row that fits is refused only where there is no file and none can be created; then the
store stays as it is. -/
theorem eq_of_append_error {row : Row} {t : RowStore} {e : Error} (hfits : SpillFile.Fits row)
    (h : append row s = .error e t) : t = s := by
  rw [append_eq] at h
  cases hspill : s.spill with
  | some f =>
    rw [hspill] at h
    have hfile := (appendToFile_ok (SpillFile.append_eq_ok_of_fits f hfits) s).symm.trans h
    cases hfile
  | none =>
    rw [hspill] at h
    by_cases hroom : s.memoryUsed + row.size ≤ s.options.memory
    · simp only [if_pos hroom] at h
      cases h
    · simp only [if_neg hroom] at h
      by_cases hcan : s.canSpill = true
      · rw [if_pos hcan] at h
        have hfile := (appendToFile_ok (SpillFile.append_eq_ok_of_fits {} hfits) s).symm.trans h
        cases hfile
      · rw [if_neg hcan] at h
        cases h
        rfl

/-! ## Reading -/

/-- What a kept page has is answered from it. -/
theorem getFromFile_of_kept {f : SpillFile} {base index : Nat} {row : Row}
    (h : (f.page? ((index - base) / s.options.pageRows)).bind
      (·[(index - base) % s.options.pageRows]?) = some row) :
    getFromFile f base index s = .ok row s := by
  unfold getFromFile
  rw [Action.get_bind]
  simp only [h]
  rfl

/-- What no kept page has is read from the file, and its page is kept. -/
theorem getFromFile_of_read {f : SpillFile} {base index number slot : Nat} {page : List Row}
    {row : Row} (hnumber : (index - base) / s.options.pageRows = number)
    (hslot : (index - base) % s.options.pageRows = slot)
    (hkept : (f.page? number).bind (·[slot]?) = none)
    (hread : (f.dropPage number).flush.readRows base (number * s.options.pageRows)
      (min (number * s.options.pageRows + s.options.pageRows) (f.dropPage number).flush.length) =
        .ok page)
    (hrow : page[slot]? = some row) :
    getFromFile f base index s =
      .ok row { s with spill := some ((f.dropPage number).flush.keepPage number page) } := by
  subst hnumber hslot
  unfold getFromFile
  rw [Action.get_bind]
  simp only [hkept]
  rw [Action.modify_bind, hread, Action.ofExcept_ok_bind]
  simp only [hrow]
  rfl

/-- A page that cannot be read is not kept, and neither is what was kept of it before. -/
theorem getFromFile_of_error {f : SpillFile} {base index number : Nat} {e : Error}
    (hnumber : (index - base) / s.options.pageRows = number)
    (hkept : (f.page? number).bind (·[(index - base) % s.options.pageRows]?) = none)
    (hread : (f.dropPage number).flush.readRows base (number * s.options.pageRows)
      (min (number * s.options.pageRows + s.options.pageRows) (f.dropPage number).flush.length) =
        .error e) :
    getFromFile f base index s =
      .error e { s with spill := some (f.dropPage number).flush } := by
  subst hnumber
  unfold getFromFile
  rw [Action.get_bind]
  simp only [hkept]
  rw [Action.modify_bind, hread]
  rfl

/-- A row of the file is read, whether from a kept page or from the file itself. -/
theorem holds_getFromFile {f : SpillFile} {spilled : List Row} {index : Nat} {row : Row}
    (hspill : s.spill = some f) (hf : f.Holds s.options.pageRows spilled)
    (hrows : rows = s.rows.toList ++ spilled) (hrow : spilled[index - s.rows.size]? = some row) :
    ∃ t, getFromFile f s.rows.size index s = .ok row t ∧ t.Holds rows ∧ s.SameSetup t := by
  have hpos := s.options.pageRows_pos
  have hlt : index - s.rows.size < spilled.length := (List.getElem?_eq_some_iff.mp hrow).1
  -- The place in the file is a slot of a page: `number * pageRows + slot`.
  have hdiv := Nat.div_add_mod' (index - s.rows.size) s.options.pageRows
  have hslot := Nat.mod_lt (index - s.rows.size) hpos
  generalize hnumber : (index - s.rows.size) / s.options.pageRows = number at hdiv
  generalize hslotOf : (index - s.rows.size) % s.options.pageRows = slot at hdiv hslot
  cases hkept : (f.page? number).bind (·[slot]?) with
  | some kept =>
    -- a kept page may be short, but what it has is right
    have hsame := hf.row_of_page hkept
    rw [hdiv, hrow] at hsame
    rw [← hnumber, ← hslotOf, ← hsame] at hkept
    exact ⟨s, getFromFile_of_kept hkept, holds_of_spill_eq_some hspill hf hrows, rfl, rfl⟩
  | none =>
    -- the page is read anew, behind what was pending
    obtain ⟨hflush, hfile, -⟩ := (hf.dropPage number).flush
    generalize hfirst : number * s.options.pageRows = first at hdiv
    generalize hlast : min (first + s.options.pageRows) spilled.length = last
    have hread := hflush.readRows hfile s.rows.size (show first ≤ last by omega)
      (show last ≤ spilled.length by omega)
    have hpage : ((spilled.take last).drop first)[slot]? = some row := by
      rw [List.getElem?_drop, hdiv, List.getElem?_take_of_lt (by omega), hrow]
    refine ⟨_, getFromFile_of_read hnumber hslotOf hkept ?_ hpage, ?_, rfl, rfl⟩
    · rw [SpillFile.length, hflush.length, hfirst, hlast, hread]
    · refine holds_of_spill_eq_some rfl (hflush.keepPage ?_) hrows
      rw [hfirst, List.drop_take]
      exact List.take_prefix _ _

/-! ### The row at a position -/

theorem row_of_memory {index : Nat} {row : Row} (h : s.rows[index]? = some row) :
    RowStore.row index s = .ok row s := by
  unfold RowStore.row
  rw [Action.get_bind]
  simp only [h]
  rfl

theorem row_of_file {f : SpillFile} {index : Nat} (hspill : s.spill = some f)
    (hmemory : s.rows.size ≤ index) (hfile : index - s.rows.size < f.length) :
    RowStore.row index s = getFromFile f s.rows.size index s := by
  unfold RowStore.row
  rw [Action.get_bind]
  simp only [Array.getElem?_eq_none hmemory, hspill, if_pos hfile]

/-- Behind the last row there is none: an error of the engine, and the store stays as it is. -/
theorem row_of_length_le {index : Nat} (h : s.length ≤ index) :
    RowStore.row index s =
      .error (.internal s!"buffer row {index} out of range (len={s.length})") s := by
  unfold RowStore.row
  rw [Action.get_bind]
  have hlength : s.rows.size + _ = s.length := rfl
  simp only [Array.getElem?_eq_none (show s.rows.size ≤ index by omega)]
  cases hspill : s.spill with
  | none => rfl
  | some f =>
    simp only [hspill] at hlength
    simp only [if_neg (show ¬index - s.rows.size < f.length by omega)]
    rfl

/-- **Reading.** The row at a position of the store is answered, and the rows stay. -/
theorem Holds.row {index : Nat} {row : Row} (h : s.Holds rows) (hrow : rows[index]? = some row) :
    ∃ t, RowStore.row index s = .ok row t ∧ t.Holds rows ∧ s.SameSetup t := by
  have hsplit := h
  unfold Holds at hsplit
  cases hmemory : s.rows[index]? with
  | some kept =>
    have hread := row_of_memory hmemory
    rw [← Array.getElem?_toList] at hmemory
    -- in memory lie the first rows, whether others are in a file or not
    have hkept : rows[index]? = some kept := by
      split at hsplit
      · rw [hsplit, hmemory]
      · obtain ⟨spilled, rfl, -⟩ := hsplit
        rw [List.getElem?_append_left (List.getElem?_eq_some_iff.mp hmemory).1, hmemory]
    rw [hrow] at hkept
    rw [Option.some.inj hkept]
    exact ⟨s, hread, h, rfl, rfl⟩
  | none =>
    have hbehind : s.rows.size ≤ index := Array.getElem?_eq_none_iff.mp hmemory
    split at hsplit
    · rw [hsplit, Array.getElem?_toList, hmemory] at hrow
      cases hrow
    · rename_i f hspill
      obtain ⟨spilled, hrows, hf⟩ := hsplit
      -- in the file lie the rows behind those in memory
      have hspilled : spilled[index - s.rows.size]? = some row := by
        rw [hrows, List.getElem?_append_right (by simpa using hbehind)] at hrow
        simpa using hrow
      have hlt : index - s.rows.size < f.length := by
        rw [SpillFile.length, hf.length]
        exact (List.getElem?_eq_some_iff.mp hspilled).1
      rw [row_of_file hspill hbehind hlt]
      exact holds_getFromFile hspill hf hrows hspilled

/-- Behind the last row a store of rows answers with an error of the engine. -/
theorem Holds.row_of_length_le {index : Nat} (h : s.Holds rows) (hindex : rows.length ≤ index) :
    RowStore.row index s =
      .error (.internal s!"buffer row {index} out of range (len={rows.length})") s := by
  rw [← h.length_eq] at hindex ⊢
  exact RowStore.row_of_length_le hindex

/-- Whether there is a row at the position or not, the rows stay. -/
theorem Holds.outcome_row (h : s.Holds rows) (index : Nat) :
    ((RowStore.row index).outcome s).2.Holds rows := by
  rw [Action.outcome]
  cases hrow : rows[index]? with
  | some row =>
    obtain ⟨t, hread, ht, -⟩ := h.row hrow
    rw [hread]
    exact ht
  | none =>
    rw [h.row_of_length_le (List.getElem?_eq_none_iff.mp hrow)]
    exact h

end RowStore

end SqlWindow
