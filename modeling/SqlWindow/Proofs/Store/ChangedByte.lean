import SqlWindow.Proofs.Preserves
import SqlWindow.Proofs.Store.Calls
import SqlWindow.Proofs.Store.DamagedRecord

set_option autoImplicit false

/-! # Stores with a changed byte

Something outside changes one byte of a spill file that is written out. The page the byte
belongs to can no longer be read: `row` answers with a resource error for each of its rows, and
never with a row. All other rows, in memory or in the file, are read as before.

The reason in one sentence: a page is read as the bytes between two offsets, which are kept in
memory, so a changed byte is seen by its own page only, and there by the record it is in.
-/

namespace SqlWindow

namespace SpillFile

/-- The file with one byte changed from outside. -/
def withByte (f : SpillFile) (i : Nat) (b : UInt8) : SpillFile := { f with file := f.file.set i b }

/-- Where the records of a page start. The page stops where the next one starts. -/
def pageStart (f : SpillFile) (pageRows number : Nat) : Nat :=
  f.offsets.getD (number * pageRows) f.endOffset

/-- A byte of the file belongs to the records of a page. -/
def InPage (f : SpillFile) (pageRows number i : Nat) : Prop :=
  f.pageStart pageRows number ≤ i ∧ i < f.pageStart pageRows (number + 1)

instance (f : SpillFile) (pageRows number i : Nat) : Decidable (f.InPage pageRows number i) :=
  inferInstanceAs (Decidable (_ ∧ _))

/-! ## Reading from the file -/

variable {f : SpillFile} {pageRows number i : Nat} {b : UInt8} {rows : List Row}

/-- A run of rows in front of the changed byte or behind it is read back as before. -/
theorem Holds.readRows_withByte (hf : f.Holds pageRows rows) (hfile : f.file = records rows)
    (base : Nat) {first last : Nat} (hfirst : first ≤ last) (hlast : last ≤ rows.length)
    (hi : i < f.offsets.getD first f.endOffset ∨ f.offsets.getD last f.endOffset ≤ i) :
    (f.withByte i b).readRows base first last = .ok ((rows.take last).drop first) := by
  obtain ⟨hstop, -, -⟩ := hf.slice hfile hfirst hlast
  rw [← hf.readRows hfile base hfirst hlast]
  unfold SpillFile.readRows withByte
  simp only [List.length_set, List.drop_set]
  rcases hi with hfront | hbehind
  · rw [if_pos hfront]
  · rw [if_neg (show ¬i < f.offsets.getD first f.endOffset by omega),
      List.take_set_of_le (by omega)]

/-- A run of rows with the changed byte is not read. -/
theorem Holds.exists_readRows_withByte_error (hf : f.Holds pageRows rows)
    (hfile : f.file = records rows) (base : Nat) {first last : Nat} (hfirst : first ≤ last)
    (hlast : last ≤ rows.length) (hstart : f.offsets.getD first f.endOffset ≤ i)
    (hstop : i < f.offsets.getD last f.endOffset) (hb : f.file[i]? ≠ some b) :
    ∃ e, (f.withByte i b).readRows base first last = .error e ∧ e.kind = .resource := by
  obtain ⟨hlength, hle, hslice⟩ := hf.slice hfile hfirst hlast
  have hcount : ((rows.take last).drop first).length = last - first := by
    rw [List.length_drop, List.length_take, Nat.min_eq_left hlast]
  have hfits : ∀ row ∈ (rows.take last).drop first, Fits row := fun row hrow =>
    hf.fits row (List.mem_of_mem_take (List.mem_of_mem_drop hrow))
  -- The bytes that are read are those of the run with the byte changed.
  generalize hoffset : i - f.offsets.getD first f.endOffset = k
  have hset : ((f.withByte i b).file.drop (f.offsets.getD first f.endOffset)).take
      (f.offsets.getD last f.endOffset - f.offsets.getD first f.endOffset) =
        (records ((rows.take last).drop first)).set k b := by
    rw [← hslice, ← List.take_set, ← hoffset, withByte, List.drop_set, if_neg (by omega)]
  have hk : k < (records ((rows.take last).drop first)).length := by omega
  have hne : (records ((rows.take last).drop first))[k] ≠ b := by
    intro h
    refine hb ?_
    rw [← h, ← List.getElem?_eq_getElem hk, ← hslice, List.getElem?_take_of_lt (by omega),
      List.getElem?_drop, show f.offsets.getD first f.endOffset + k = i by omega]
  have hread : (f.withByte i b).readRows base first last = readRecords (base + first)
      ((rows.take last).drop first).length ((records ((rows.take last).drop first)).set k b) := by
    rw [hcount, ← hset]
    unfold SpillFile.readRows
    exact if_neg (by rw [withByte, List.length_set]; exact Nat.not_lt.mpr hle)
  rw [hread]
  cases hfound : readRecords (base + first) ((rows.take last).drop first).length
      ((records ((rows.take last).drop first)).set k b) with
  | ok found => exact absurd hfound (readRecords_set_ne_ok hfits hk hne found)
  | error e => exact ⟨e, rfl, kind_of_readRecords_error hfound⟩

/-! ## Pages -/

theorem flush_of_pending_eq_nil (h : f.pending = []) : f.flush = f := by
  rw [flush, h]
  exact if_pos rfl

@[simp] theorem pending_flush (f : SpillFile) : f.flush.pending = [] := by
  unfold flush
  split
  · rename_i hempty
    exact List.isEmpty_iff.mp hempty
  · rfl

@[simp] theorem inPage_flush (f : SpillFile) :
    f.flush.InPage pageRows number i ↔ f.InPage pageRows number i := by
  unfold flush
  split <;> rfl

theorem Holds.pageStart_eq (hf : f.Holds pageRows rows) (number : Nat) :
    f.pageStart pageRows number = (records (rows.take (number * pageRows))).length := by
  unfold pageStart
  by_cases hlength : number * pageRows ≤ rows.length
  · exact hf.getD_offsets hlength
  · have hnone : f.offsets[number * pageRows]? = none := by
      rw [Array.getElem?_eq_none_iff, hf.length]
      omega
    rw [Array.getD_eq_getD_getElem?, hnone, Option.getD_none, hf.endOffset,
      List.take_of_length_le (by omega)]

/-- Pages lie one behind the other. -/
theorem Holds.pageStart_le (hf : f.Holds pageRows rows) {next : Nat} (h : number ≤ next) :
    f.pageStart pageRows number ≤ f.pageStart pageRows next := by
  rw [hf.pageStart_eq, hf.pageStart_eq]
  have hrows : number * pageRows ≤ next * pageRows := Nat.mul_le_mul_right pageRows h
  have hsplit := List.take_append_drop (number * pageRows) (rows.take (next * pageRows))
  rw [List.take_take, Nat.min_eq_left hrows] at hsplit
  rw [← hsplit, records_append, List.length_append]
  exact Nat.le_add_right _ _

/-- A byte belongs to one page only. -/
theorem Holds.eq_of_inPage (hf : f.Holds pageRows rows) {other : Nat}
    (h : f.InPage pageRows number i) (hother : f.InPage pageRows other i) : number = other := by
  unfold InPage at h hother
  rcases Nat.lt_trichotomy number other with hlt | heq | hlt
  · have hle := hf.pageStart_le (show number + 1 ≤ other from hlt)
    omega
  · exact heq
  · have hle := hf.pageStart_le (show other + 1 ≤ number from hlt)
    omega

/-- The offset behind the last row of a page, or behind the last row there is, is where the page
stops. -/
theorem Holds.getD_offsets_min (hf : f.Holds pageRows rows) (number : Nat) :
    f.offsets.getD (min (number * pageRows + pageRows) rows.length) f.endOffset =
      f.pageStart pageRows (number + 1) := by
  rw [hf.getD_offsets (Nat.min_le_right _ _), hf.pageStart_eq, Nat.succ_mul,
    ← List.take_take, List.take_length]

/-- A page that the changed byte does not belong to is read back as before. -/
theorem Holds.readRows_withByte_of_not_inPage (hf : f.Holds pageRows rows)
    (hpending : f.pending = []) (base : Nat)
    (hnumber : number * pageRows ≤ rows.length) (hi : ¬f.InPage pageRows number i) :
    (f.withByte i b).readRows base (number * pageRows)
        (min (number * pageRows + pageRows) f.length) =
      .ok ((rows.drop (number * pageRows)).take pageRows) := by
  have hfile : f.file = records rows := by
    rw [← hf.bytes, hpending, List.append_nil]
  have hstop := hf.getD_offsets_min number
  have hpage : (rows.take (min (number * pageRows + pageRows) rows.length)).drop
      (number * pageRows) = (rows.drop (number * pageRows)).take pageRows := by
    rw [← List.take_take, List.take_length, List.drop_take, Nat.add_sub_cancel_left]
  rw [SpillFile.length, hf.length, ← hpage]
  refine hf.readRows_withByte hfile base (by omega) (Nat.min_le_right _ _) ?_
  unfold InPage pageStart at hi
  rw [hstop]
  unfold pageStart
  omega

/-- The page that the changed byte belongs to is not read. -/
theorem Holds.exists_readRows_withByte_error_of_inPage (hf : f.Holds pageRows rows)
    (hpending : f.pending = []) (base : Nat)
    (hnumber : number * pageRows ≤ rows.length) (hi : f.InPage pageRows number i)
    (hb : f.file[i]? ≠ some b) :
    ∃ e, (f.withByte i b).readRows base (number * pageRows)
        (min (number * pageRows + pageRows) f.length) = .error e ∧ e.kind = .resource := by
  have hfile : f.file = records rows := by
    rw [← hf.bytes, hpending, List.append_nil]
  have hstop := hf.getD_offsets_min number
  rw [SpillFile.length, hf.length]
  exact hf.exists_readRows_withByte_error hfile base (by omega) (Nat.min_le_right _ _) hi.1
    (hstop ▸ hi.2) hb

end SpillFile

namespace RowStore

open SpillFile

/-! ## Reading from the store -/

/-- The store with everything written out and one byte of its file changed from outside. -/
def changeByte (s : RowStore) (i : Nat) (b : UInt8) : RowStore :=
  { s with spill := s.spill.map (·.flush.withByte i b) }

/-- The row at a position lies on a page of the file. -/
def OnPage (s : RowStore) (number index : Nat) : Prop :=
  s.rows.size ≤ index ∧ (index - s.rows.size) / s.options.pageRows = number

instance (s : RowStore) (number index : Nat) : Decidable (s.OnPage number index) :=
  inferInstanceAs (Decidable (_ ∧ _))

/-- A page of the file is kept. -/
def KeepsPage (s : RowStore) (number : Nat) : Prop := (s.spill.bind (·.page? number)).isSome

instance (s : RowStore) (number : Nat) : Decidable (s.KeepsPage number) :=
  inferInstanceAs (Decidable (_ = true))

/-- The store `t` is the store `s` with a byte of its file `f` changed, and maybe other pages
kept. The pages that are kept are sound, also the one that the byte belongs to. -/
def Changed (s : RowStore) (f : SpillFile) (spilled : List Row) (i : Nat) (b : UInt8)
    (t : RowStore) : Prop :=
  ∃ pages, ({ f with pages } : SpillFile).Holds s.options.pageRows spilled ∧
    t = { s with spill := some (({ f with pages } : SpillFile).withByte i b) }

variable {s t : RowStore} {f : SpillFile} {spilled : List Row} {i number index : Nat} {b : UInt8}
  {row : Row}

/-- **A row of the file** is read from a kept page, or from the file if the byte does not belong
to its page; if it does, reading fails. -/
theorem Changed.exists_getFromFile {g : SpillFile} (ht : s.Changed f spilled i b t)
    (hspill : t.spill = some g) (hpending : f.pending = []) (hb : f.file[i]? ≠ some b)
    (hrow : spilled[index - s.rows.size]? = some row)
    (hnumber : (index - s.rows.size) / s.options.pageRows = number) :
    ∃ u, s.Changed f spilled i b u ∧
      (getFromFile g s.rows.size index t = .ok row u ∧
          (t.KeepsPage number ∨ ¬f.InPage s.options.pageRows number i) ∨
        ∃ e, getFromFile g s.rows.size index t = .error e u ∧
          e.kind = .resource ∧ f.InPage s.options.pageRows number i) := by
  obtain ⟨pages, hg, rfl⟩ := ht
  cases hspill
  have hlt : index - s.rows.size < spilled.length := (List.getElem?_eq_some_iff.mp hrow).1
  have hdiv := Nat.div_add_mod' (index - s.rows.size) s.options.pageRows
  have hslot := Nat.mod_lt (index - s.rows.size) s.options.pageRows_pos
  rw [hnumber] at hdiv
  generalize hslotOf : (index - s.rows.size) % s.options.pageRows = slot at hdiv hslot
  cases hkept : (pages.lookup number).bind (·[slot]?) with
  | some kept =>
    have hsame := hg.row_of_page hkept
    rw [hdiv, hrow] at hsame
    obtain ⟨page, hpage, -⟩ := Option.bind_eq_some_iff.mp hkept
    refine ⟨_, ⟨pages, hg, rfl⟩, .inl ⟨?_, .inl (Option.isSome_iff_exists.mpr ⟨page, hpage⟩)⟩⟩
    rw [← hnumber, ← hslotOf, ← hsame] at hkept
    exact getFromFile_of_kept hkept
  | none =>
    -- the page is read anew, from a file without it that has nothing to write
    generalize hothers : pages.filter (·.1 != number) = others
    have hflush : (SpillFile.dropPage (withByte { f with pages } i b) number).flush =
        withByte { f with pages := others } i b := by
      rw [flush_of_pending_eq_nil (by exact hpending), ← hothers]
      rfl
    have hdrop : ({ f with pages := others } : SpillFile).Holds s.options.pageRows spilled :=
      hothers ▸ hg.dropPage number
    by_cases hin : f.InPage s.options.pageRows number i
    · obtain ⟨e, hread, hkind⟩ := hdrop.exists_readRows_withByte_error_of_inPage hpending
        s.rows.size (by omega) hin hb
      refine ⟨_, ⟨others, hdrop, rfl⟩, .inr ⟨e, ?_, hkind, hin⟩⟩
      rw [← hflush]
      exact getFromFile_of_error hnumber (hslotOf ▸ hkept) (hflush ▸ hread)
    · have hread := hdrop.readRows_withByte_of_not_inPage (b := b) hpending
        s.rows.size (show _ ≤ spilled.length by omega) hin
      generalize hpage : (spilled.drop (number * s.options.pageRows)).take s.options.pageRows = page
        at hread
      have hslotRow : page[slot]? = some row := by
        rw [← hpage, List.getElem?_take_of_lt hslot, List.getElem?_drop, hdiv, hrow]
      have hkeep : (SpillFile.keepPage { f with pages := others } number page).Holds
          s.options.pageRows spilled := hdrop.keepPage (hpage ▸ List.take_prefix _ _)
      refine ⟨_, ⟨_, hkeep, rfl⟩, .inl ⟨?_, .inr hin⟩⟩
      show _ = EStateM.Result.ok row { s with
        spill := some (SpillFile.keepPage (withByte { f with pages := others } i b) number page) }
      rw [← hflush]
      exact getFromFile_of_read hnumber hslotOf hkept (hflush ▸ hread) hslotRow

/-- **The row at a position.** Rows in memory and rows of other pages are read; a row of the page
with the changed byte is read if that page is kept, and else reading fails. -/
theorem Changed.exists_row (ht : s.Changed f spilled i b t) (hpending : f.pending = [])
    (hb : f.file[i]? ≠ some b) (hi : f.InPage s.options.pageRows number i)
    (hrow : (s.rows.toList ++ spilled)[index]? = some row) :
    ∃ u, s.Changed f spilled i b u ∧
      (RowStore.row index t = .ok row u ∧ (t.KeepsPage number ∨ ¬s.OnPage number index) ∨
        ∃ e, RowStore.row index t = .error e u ∧ e.kind = .resource ∧ s.OnPage number index) := by
  have hchanged := ht
  obtain ⟨pages, hg, ht⟩ := ht
  have hrows : t.rows = s.rows := by rw [ht]
  have hspill : t.spill = some (withByte { f with pages } i b) := by rw [ht]
  by_cases hmemory : index < s.rows.size
  · rw [List.getElem?_append_left (by simpa using hmemory), Array.getElem?_toList, ← hrows] at hrow
    refine ⟨t, hchanged, .inl ⟨row_of_memory hrow, .inr fun hpage => ?_⟩⟩
    exact Nat.not_lt.mpr hpage.1 hmemory
  · have hbehind : s.rows.size ≤ index := Nat.le_of_not_lt hmemory
    rw [List.getElem?_append_right (by simpa using hbehind), Array.length_toList] at hrow
    have hlt : index - s.rows.size < f.offsets.size :=
      hg.length ▸ (List.getElem?_eq_some_iff.mp hrow).1
    obtain ⟨u, hu, hread⟩ := hchanged.exists_getFromFile hspill hpending hb hrow rfl
    rw [row_of_file hspill (hrows ▸ hbehind) (hrows ▸ hlt), hrows]
    refine ⟨u, hu, ?_⟩
    rcases hread with ⟨hok, hwhy⟩ | ⟨e, herror, hkind, hin⟩
    · refine .inl ⟨hok, ?_⟩
      by_cases hpage : s.OnPage number index
      · obtain ⟨-, rfl⟩ := hpage
        exact .inl (hwhy.resolve_right fun hnot => hnot hi)
      · exact .inr hpage
    · exact .inr ⟨e, herror, hkind, hbehind, hg.eq_of_inPage hin hi⟩

/-- A read leaves the store as it is, but for the pages that it keeps. -/
theorem preserves_changed_row (hpending : f.pending = []) (hb : f.file[i]? ≠ some b)
    (hi : f.InPage s.options.pageRows number i) (index : Nat) :
    Action.Preserves (s.Changed f spilled i b) (RowStore.row index) := by
  intro t ht
  cases hrow : (s.rows.toList ++ spilled)[index]? with
  | some row =>
    obtain ⟨u, hu, hread⟩ := ht.exists_row hpending hb hi hrow
    rcases hread with ⟨hok, -⟩ | ⟨e, herror, -⟩
    · rw [Action.outcome_of_ok hok]
      exact hu
    · rw [Action.outcome_of_error herror]
      exact hu
  | none =>
    have hlength : t.length ≤ index := by
      obtain ⟨pages, hg, rfl⟩ := ht
      have hindex := List.getElem?_eq_none_iff.mp hrow
      rw [List.length_append, Array.length_toList, ← hg.length] at hindex
      exact hindex
    rw [Action.outcome_of_error (row_of_length_le hlength)]
    exact ht

/-- The store behind reads of the rows at some positions. -/
def afterReads (s : RowStore) (indices : List Nat) : RowStore :=
  indices.foldl (fun s index => ((RowStore.row index).outcome s).2) s

theorem Changed.afterReads (ht : s.Changed f spilled i b t) (hpending : f.pending = [])
    (hb : f.file[i]? ≠ some b) (hi : f.InPage s.options.pageRows number i) (indices : List Nat) :
    s.Changed f spilled i b (t.afterReads indices) := by
  induction indices generalizing t with
  | nil => exact ht
  | cons index indices ih => exact ih (preserves_changed_row hpending hb hi index t ht)

end RowStore

/-! ## Behind any calls -/

namespace StoreCall

/-- The store behind a call, and the rows that it answers with: a call that fails changes no rows.
So a row too large for a record, whose append fails, is none of them, unlike in `StoreAttempt.next`,
which is about the room that rows have claimed and not about the places they are read at. -/
def next (state : RowStore × List Row) (call : StoreCall) : RowStore × List Row :=
  match call.perform.outcome state.1 with
  | (.ok _, s) => (s, (call.onList state.2).2)
  | (.error _, s) => (s, state.2)

/-- A new store behind some calls, and the rows appended to it since it was last emptied. -/
def behind (options : Options) (canSpill : Bool) (calls : List StoreCall) : RowStore × List Row :=
  calls.foldl next ({ options, canSpill }, [])

theorem holds_next {state : RowStore × List Row} (h : state.1.Holds state.2) (call : StoreCall) :
    (next state call).1.Holds (next state call).2 := by
  obtain ⟨s, rows⟩ := state
  cases call with
  | append row =>
    have happended := RowStore.Holds.append h row
    cases hresult : RowStore.append row s with
    | ok a t =>
      rw [hresult] at happended
      have hperform : (perform (append row)).outcome s = (.ok none, t) :=
        Action.outcome_of_ok (Action.bind_of_ok hresult)
      rw [next, hperform]
      exact happended.1
    | error e t =>
      rw [hresult] at happended
      have hperform : (perform (append row)).outcome s = (.error e, t) :=
        Action.outcome_of_error (Action.bind_of_error hresult)
      rw [next, hperform]
      exact happended.1
  | get index =>
    have hanswer := Action.outcome_bind_pure (RowStore.row index) some s
    have hread := RowStore.Holds.outcome_row h index
    rw [next, show (perform (get index)).outcome s = _ from hanswer]
    generalize (RowStore.row index).outcome s = answer at hread ⊢
    obtain ⟨_ | _, t⟩ := answer <;> exact hread
  | release => exact RowStore.holds_release s

/-- A store behind any calls is sound. -/
theorem holds_behind (options : Options) (canSpill : Bool) (calls : List StoreCall) :
    (behind options canSpill calls).1.Holds (behind options canSpill calls).2 := by
  have hnew : RowStore.Holds { options, canSpill } [] := RowStore.holds_of_spill_eq_none rfl rfl
  unfold behind
  generalize hstate : (({ options, canSpill }, []) : RowStore × List Row) = state
  have hholds : state.1.Holds state.2 := hstate ▸ hnew
  clear hstate hnew
  induction calls generalizing state with
  | nil => exact hholds
  | cons call calls ih => exact ih (next state call) (holds_next hholds call)

end StoreCall

/-- **A changed byte is seen by its page alone.** Take the store behind any calls, with what has
gone to the file written out, and change one byte of a page's records. From then on, whatever
was read before, a row of that page is answered with a resource error unless the page is kept,
and every other row of the store with the row itself. -/
theorem RowStore.row_behind_changed_byte {options : Options} {canSpill : Bool}
    {calls : List StoreCall} {s : RowStore} {rows : List Row} {f : SpillFile} {number i : Nat}
    {b : UInt8} (hcalls : StoreCall.behind options canSpill calls = (s, rows))
    (hspill : s.spill = some f) (hi : f.InPage s.options.pageRows number i)
    (hb : f.flush.file[i]? ≠ some b) (reads : List Nat) {index : Nat} {row : Row}
    (hrow : rows[index]? = some row) :
    (s.OnPage number index → ¬((s.changeByte i b).afterReads reads).KeepsPage number →
      ∃ e t, RowStore.row index ((s.changeByte i b).afterReads reads) = .error e t ∧
        e.kind = .resource) ∧
    (¬s.OnPage number index →
      ∃ t, RowStore.row index ((s.changeByte i b).afterReads reads) = .ok row t) := by
  have hholds := StoreCall.holds_behind options canSpill calls
  rw [hcalls] at hholds
  unfold RowStore.Holds at hholds
  simp only [hspill] at hholds
  obtain ⟨spilled, rfl, hf⟩ := hholds
  obtain ⟨hflush, hfile, -⟩ := hf.flush
  have hpending := f.pending_flush
  rw [← f.inPage_flush] at hi
  have hchanged : s.Changed f.flush spilled i b (s.changeByte i b) := by
    refine ⟨f.flush.pages, hflush, ?_⟩
    rw [changeByte, hspill]
    rfl
  have hbehind := hchanged.afterReads hpending hb hi reads
  obtain ⟨u, -, hread⟩ := hbehind.exists_row hpending hb hi hrow
  rcases hread with ⟨hok, hwhy⟩ | ⟨e, herror, hkind, hpage⟩
  · refine ⟨fun hpage hkept => ?_, fun _ => ⟨u, hok⟩⟩
    rcases hwhy with hkeeps | hnot
    · exact absurd hkeeps hkept
    · exact absurd hpage hnot
  · exact ⟨fun _ _ => ⟨e, u, herror, hkind⟩, fun hnot => absurd hpage hnot⟩

/-- Three rows in a file, on pages of one row each: the first byte of the second row's record,
the 22nd of the file, becomes 0. -/
theorem RowStore.row_of_three_behind_changed_byte :
    let calls := [.append [.integer 1], .append [.integer 2], .append [.integer 3]]
    let s := (StoreCall.behind { memory := 0, pageRows := 1 } true calls).1
    let t := (s.changeByte 21 0).afterReads [0, 1]
    (∃ e u, RowStore.row 1 t = .error e u ∧ e.kind = .resource) ∧
      (∃ u, RowStore.row 0 t = .ok [.integer 1] u) ∧
      ∃ u, RowStore.row 2 t = .ok [.integer 3] u := by
  intro calls s t
  have hspill : s.spill = some (s.spill.getD {}) := rfl
  have hi : (s.spill.getD {}).InPage s.options.pageRows 1 21 := by decide +kernel
  have hb : (s.spill.getD {}).flush.file[21]? ≠ some 0 := by decide +kernel
  have hkept : ¬t.KeepsPage 1 := by decide +kernel
  let rows : List Row := [[.integer 1], [.integer 2], [.integer 3]]
  have hcalls : StoreCall.behind { memory := 0, pageRows := 1 } true calls = (s, rows) := rfl
  have hfirst : rows[0]? = some [.integer 1] := rfl
  have hsecond : rows[1]? = some [.integer 2] := rfl
  have hthird : rows[2]? = some [.integer 3] := rfl
  refine ⟨?_, ?_, ?_⟩
  · exact (row_behind_changed_byte hcalls hspill hi hb [0, 1] hsecond).1 (by decide) hkept
  · exact (row_behind_changed_byte hcalls hspill hi hb [0, 1] hfirst).2 (by decide)
  · exact (row_behind_changed_byte hcalls hspill hi hb [0, 1] hthird).2 (by decide)

end SqlWindow
