import SqlWindow.Proofs.Record.RoundTrip
import SqlWindow.Store.SpillFile

set_option autoImplicit false

/-! # The rows of a spill file

`SpillFile.Holds f pageRows rows` says that `f` is a sound file of the rows `rows`, read back in
pages of `pageRows` rows: the bytes in the file and those still waiting are the records of the
rows one behind the other, the offsets are where the records start, and a kept page is a run of
rows from the start of its page on. A kept page may be shorter than the page has become since.

Appending a row, writing out what waits, and keeping or dropping a page all keep a file sound,
and from a sound file that is written out every run of rows is read back.
-/

namespace SqlWindow

namespace SpillFile

/-! ## Records -/

/-- The encoded row is short enough for a record. -/
def Fits (row : Row) : Prop := (Record.encodeRow row).length < UInt32.size

instance (row : Row) : Decidable (Fits row) := inferInstanceAs (Decidable (_ < _))

/-- The records of rows, one behind the other. -/
def records (rows : List Row) : List UInt8 := rows.flatMap fun row => record (Record.encodeRow row)

@[simp] theorem records_nil : records [] = [] := rfl

theorem records_cons (row : Row) (rows : List Row) :
    records (row :: rows) = record (Record.encodeRow row) ++ records rows := List.flatMap_cons

theorem records_append (rows more : List Row) :
    records (rows ++ more) = records rows ++ records more := List.flatMap_append

theorem records_singleton (row : Row) : records [row] = record (Record.encodeRow row) := by
  rw [records_cons, records_nil, List.append_nil]

theorem length_record (payload : List UInt8) : (record payload).length = 8 + payload.length := by
  rw [record]
  simp only [List.length_append, Record.length_littleEndian]
  omega

/-- The record of a row that fits is read as that row. -/
theorem readRecord_record {row : Row} (position : Nat) (rest : List UInt8) (h : Fits row) :
    readRecord position (record (Record.encodeRow row) ++ rest) = .ok (row, rest) := by
  -- Of the row nothing matters from here on but its bytes, and that these are read back.
  have hdecode := Record.decodeRow_encodeRow (Record.rowFits_of_length_lt h)
  unfold Fits at h
  generalize Record.encodeRow row = payload at h hdecode ⊢
  have hlength := length_record payload
  have hsize : Record.ofLittleEndian (((record payload) ++ rest).take 4) = payload.length := by
    rw [record, List.append_assoc, List.append_assoc,
      List.take_left' (Record.length_littleEndian 4 _)]
    exact Record.ofLittleEndian_littleEndian 4 _ h
  have hpayload : ((record payload ++ rest).drop 4).take payload.length = payload := by
    rw [record, List.append_assoc, List.append_assoc,
      List.drop_left' (Record.length_littleEndian 4 _), List.take_left]
  have hsum : Record.ofLittleEndian (((record payload ++ rest).drop (4 + payload.length)).take 4) =
      (crc32 payload).toNat := by
    rw [record, List.append_assoc, List.drop_left' (by
      rw [List.length_append, Record.length_littleEndian]), List.take_left'
      (Record.length_littleEndian 4 _)]
    exact Record.ofLittleEndian_littleEndian 4 _ (crc32 payload).toNat_lt
  have hrest : (record payload ++ rest).drop (8 + payload.length) = rest := by
    rw [List.drop_left' hlength]
  unfold readRecord
  simp only [hsize, hpayload, hsum, hrest, UInt32.ofNat_toNat, hdecode]
  rw [if_neg (by rw [List.length_append, hlength]; omega), if_neg (by simp)]
  rfl

theorem readRecords_records {rows : List Row} (position : Nat) (rest : List UInt8)
    (h : ∀ row ∈ rows, Fits row) :
    readRecords position rows.length (records rows ++ rest) = .ok rows := by
  induction rows generalizing position with
  | nil => rfl
  | cons row rows ih =>
    rw [records_cons, List.append_assoc, List.length_cons, readRecords,
      readRecord_record position _ (h row List.mem_cons_self)]
    show (readRecords (position + 1) rows.length _ >>= fun tail => pure (row :: tail)) = _
    rw [ih (position + 1) fun r hr => h r (List.mem_cons_of_mem row hr)]
    rfl

/-! ## Sound files -/

/-- `f` is a sound file of `rows`, read in pages of `pageRows` rows. -/
structure Holds (f : SpillFile) (pageRows : Nat) (rows : List Row) : Prop where
  fits : ∀ row ∈ rows, Fits row
  bytes : f.file ++ f.pending = records rows
  endOffset : f.endOffset = (records rows).length
  length : f.offsets.size = rows.length
  offset : ∀ k, k < rows.length → f.offsets[k]? = some (records (rows.take k)).length
  page : ∀ p ∈ f.pages, p.2 <+: rows.drop (p.1 * pageRows)

variable {f : SpillFile} {pageRows : Nat} {rows : List Row}

theorem holds_empty (pageRows : Nat) : Holds {} pageRows [] where
  fits := by simp
  bytes := rfl
  endOffset := rfl
  length := rfl
  offset := by simp
  page := by simp

/-! ### Writing -/

theorem append_eq_ok_of_fits (f : SpillFile) {row : Row} (h : Fits row) :
    f.append row = .ok { f with
      pending := f.pending ++ record (Record.encodeRow row)
      offsets := f.offsets.push f.endOffset
      endOffset := f.endOffset + (record (Record.encodeRow row)).length } := by
  rw [append]
  exact if_pos h

/-- Appending to a file succeeds exactly on rows that fit. -/
theorem fits_of_append_eq_ok {g : SpillFile} {row : Row} (h : f.append row = .ok g) : Fits row := by
  by_cases hfits : Fits row
  · exact hfits
  · unfold Fits at hfits
    rw [append, if_neg hfits] at h
    cases h

theorem Holds.append {g : SpillFile} {row : Row} (hf : f.Holds pageRows rows)
    (h : f.append row = .ok g) : g.Holds pageRows (rows ++ [row]) := by
  have hfits := fits_of_append_eq_ok h
  rw [append_eq_ok_of_fits f hfits] at h
  cases h
  refine ⟨?_, ?_, ?_, ?_, ?_, ?_⟩
  · intro r hr
    rcases List.mem_append.mp hr with hr | hr
    · exact hf.fits r hr
    · rw [List.mem_singleton.mp hr]
      exact hfits
  · rw [← List.append_assoc, hf.bytes, records_append, records_singleton]
  · rw [records_append, List.length_append, records_singleton, hf.endOffset]
  · rw [Array.size_push, hf.length, List.length_append, List.length_singleton]
  · intro k hk
    rw [List.length_append, List.length_singleton] at hk
    -- the new row starts where the file ended
    rw [Array.getElem?_push, hf.length]
    by_cases hlast : k = rows.length
    · rw [if_pos hlast, hf.endOffset, hlast, List.take_left]
    · rw [if_neg hlast, hf.offset k (by omega), List.take_append_of_le_length (by omega)]
  · intro p hp
    have hold := hf.page p hp
    rw [List.drop_append]
    exact hold.trans (List.prefix_append _ _)

theorem Holds.flush (hf : f.Holds pageRows rows) :
    f.flush.Holds pageRows rows ∧ f.flush.file = records rows ∧ f.flush.pages = f.pages := by
  unfold SpillFile.flush
  by_cases hempty : f.pending.isEmpty
  · rw [if_pos hempty]
    have hbytes := hf.bytes
    rw [List.isEmpty_iff.mp hempty, List.append_nil] at hbytes
    exact ⟨hf, hbytes, rfl⟩
  -- what is pending goes behind the last byte of the file
  · have hfile : overwrite f.file (f.endOffset - f.pending.length) f.pending = records rows := by
      have hoffset : f.endOffset - f.pending.length = f.file.length := by
        rw [hf.endOffset, ← hf.bytes, List.length_append, Nat.add_sub_cancel]
      rw [overwrite, if_neg hempty, hoffset, List.take_length, Nat.sub_self, List.replicate_zero,
        List.append_nil, List.drop_eq_nil_of_le (by omega), List.append_nil, hf.bytes]
    rw [if_neg hempty]
    refine ⟨⟨hf.fits, ?_, hf.endOffset, hf.length, hf.offset, hf.page⟩, hfile, rfl⟩
    rw [List.append_nil, hfile]

/-! ### Pages -/

theorem Holds.dropPage (hf : f.Holds pageRows rows) (number : Nat) :
    (f.dropPage number).Holds pageRows rows where
  fits := hf.fits
  bytes := hf.bytes
  endOffset := hf.endOffset
  length := hf.length
  offset := hf.offset
  page p hp := hf.page p (List.mem_filter.mp hp).1

theorem Holds.keepPage {number : Nat} {page : List Row} (hf : f.Holds pageRows rows)
    (hpage : page <+: rows.drop (number * pageRows)) :
    (f.keepPage number page).Holds pageRows rows where
  fits := hf.fits
  bytes := hf.bytes
  endOffset := hf.endOffset
  length := hf.length
  offset := hf.offset
  page p hp := by
    rw [SpillFile.keepPage] at hp
    rcases List.mem_append.mp hp with hp | hp
    · split at hp
      · exact hf.page p (List.mem_of_mem_drop hp)
      · exact hf.page p hp
    · rw [List.mem_singleton.mp hp]
      exact hpage

/-- A row found on a kept page is the row at that place. -/
theorem Holds.row_of_page {number slot : Nat} {row : Row} (hf : f.Holds pageRows rows)
    (h : (f.page? number).bind (·[slot]?) = some row) :
    rows[number * pageRows + slot]? = some row := by
  obtain ⟨page, hpage, hslot⟩ := Option.bind_eq_some_iff.mp h
  -- the page that is found is one of those kept, so a front part of its rows
  obtain ⟨before, after, hpages, -⟩ := List.lookup_eq_some_iff.mp hpage
  have hmem : (number, page) ∈ f.pages := by
    rw [hpages]
    simp
  obtain ⟨rest, hrest⟩ := hf.page _ hmem
  have hlt : slot < page.length := (List.getElem?_eq_some_iff.mp hslot).1
  rw [← List.getElem?_drop, ← hrest, List.getElem?_append_left hlt, hslot]

/-! ### Reading -/

/-- The offset of a position is the length of the records in front of it, also behind the last
row. -/
theorem Holds.getD_offsets (hf : f.Holds pageRows rows) {k : Nat} (hk : k ≤ rows.length) :
    f.offsets.getD k f.endOffset = (records (rows.take k)).length := by
  rw [Array.getD_eq_getD_getElem?]
  by_cases hlast : k = rows.length
  · have hnone : f.offsets[k]? = none := by
      rw [Array.getElem?_eq_none_iff, hf.length]
      omega
    rw [hnone, Option.getD_none, hlast, List.take_length, hf.endOffset]
  · rw [hf.offset k (by omega), Option.getD_some]

/-- Where the records of a run of rows start and stop, and what is between. -/
theorem Holds.slice (hf : f.Holds pageRows rows) (hfile : f.file = records rows) {first last : Nat}
    (hfirst : first ≤ last) (hlast : last ≤ rows.length) :
    f.offsets.getD last f.endOffset = f.offsets.getD first f.endOffset +
        (records ((rows.take last).drop first)).length ∧
      f.offsets.getD last f.endOffset ≤ f.file.length ∧
      (f.file.drop (f.offsets.getD first f.endOffset)).take
          (f.offsets.getD last f.endOffset - f.offsets.getD first f.endOffset) =
        records ((rows.take last).drop first) := by
  -- The file is three runs of records: up to `first`, up to `last`, and the rest.
  have hfront : records (rows.take last) =
      records (rows.take first) ++ records ((rows.take last).drop first) := by
    have htake := List.take_append_drop first (rows.take last)
    rw [List.take_take, Nat.min_eq_left hfirst] at htake
    rw [← records_append, htake]
  have hsplit : records rows = records (rows.take first) ++
      (records ((rows.take last).drop first) ++ records (rows.drop last)) := by
    rw [← List.append_assoc, ← hfront, ← records_append, List.take_append_drop]
  have hstop : (records (rows.take last)).length = (records (rows.take first)).length +
      (records ((rows.take last).drop first)).length := by
    rw [hfront, List.length_append]
  rw [hf.getD_offsets hlast, hf.getD_offsets (Nat.le_trans hfirst hlast), hfile, hstop]
  refine ⟨rfl, ?_, ?_⟩
  · rw [hsplit]
    simp only [List.length_append]
    omega
  · rw [Nat.add_sub_cancel_left, hsplit, List.drop_left, List.take_left]

/-- From a file that is written out every run of rows is read back. -/
theorem Holds.readRows (hf : f.Holds pageRows rows) (hfile : f.file = records rows)
    (base : Nat) {first last : Nat} (hfirst : first ≤ last) (hlast : last ≤ rows.length) :
    f.readRows base first last = .ok ((rows.take last).drop first) := by
  obtain ⟨-, hle, hslice⟩ := hf.slice hfile hfirst hlast
  have hcount : ((rows.take last).drop first).length = last - first := by
    rw [List.length_drop, List.length_take, Nat.min_eq_left hlast]
  have hfits : ∀ row ∈ (rows.take last).drop first, Fits row := fun row hrow =>
    hf.fits row (List.mem_of_mem_take (List.mem_of_mem_drop hrow))
  unfold SpillFile.readRows
  simp only [hslice]
  rw [if_neg (Nat.not_lt.mpr hle), ← hcount]
  have hread := readRecords_records (base + first) [] hfits
  rwa [List.append_nil] at hread

end SpillFile

end SqlWindow
