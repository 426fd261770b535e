import SqlWindow.Proofs.Answer
import SqlWindow.Proofs.Crc32
import SqlWindow.Proofs.Record.Sequential
import SqlWindow.Proofs.Store.SpillFile

set_option autoImplicit false

/-! # Records with a damaged byte

A record of which one byte has changed is not read, whichever byte it is. The checksum shows a
change in the row and one in the checksum itself. A change in the length makes the reader take
fewer or more bytes for the row, and then it is the row that does not end where it should; the
checksum, of other bytes than the row's, may well fit by accident.
-/

namespace SqlWindow

namespace Record

/-- A number of fixed width has its bytes only. -/
theorem eq_of_ofLittleEndian_eq {bytes others : List UInt8} (hlength : bytes.length = others.length)
    (h : ofLittleEndian bytes = ofLittleEndian others) : bytes = others := by
  rw [← littleEndian_ofLittleEndian bytes, ← littleEndian_ofLittleEndian others, hlength, h]

/-- A changed byte changes the number. -/
theorem ofLittleEndian_set_ne {bytes : List UInt8} {i : Nat} {b : UInt8} (hi : i < bytes.length)
    (hb : bytes[i] ≠ b) : ofLittleEndian (bytes.set i b) ≠ ofLittleEndian bytes := by
  intro h
  have hset := eq_of_ofLittleEndian_eq (List.length_set) h
  have hget := List.getElem_set_self (a := b) (List.length_set.symm ▸ hi)
  simp only [hset] at hget
  exact hb hget

/-- A changed byte changes the 32-bit number. -/
theorem ofNat_ofLittleEndian_set_ne {c : UInt32} {i : Nat} {b : UInt8}
    (hi : i < (littleEndian 4 c.toNat).length) (hb : (littleEndian 4 c.toNat)[i] ≠ b) :
    UInt32.ofNat (ofLittleEndian ((littleEndian 4 c.toNat).set i b)) ≠ c := by
  intro h
  have hlt := ofLittleEndian_lt ((littleEndian 4 c.toNat).set i b)
  rw [List.length_set, length_littleEndian] at hlt
  refine ofLittleEndian_set_ne hi hb ?_
  calc ofLittleEndian ((littleEndian 4 c.toNat).set i b)
      = (UInt32.ofNat (ofLittleEndian ((littleEndian 4 c.toNat).set i b))).toNat :=
        (UInt32.toNat_ofNat_of_lt' hlt).symm
    _ = c.toNat := by rw [h]
    _ = ofLittleEndian (littleEndian 4 c.toNat) :=
        (ofLittleEndian_littleEndian 4 _ c.toNat_lt).symm

end Record

namespace SpillFile

open Record

/-! ## Reading a record -/

/-- A record that is read is a length, as many bytes that make a row, and their checksum. -/
theorem exists_of_readRecord {position : Nat} {bytes rest : List UInt8} {row : Row}
    (h : readRecord position bytes = .ok (row, rest)) :
    ∃ header body sum, bytes = header ++ (body ++ (sum ++ rest)) ∧ header.length = 4 ∧
      sum.length = 4 ∧ body.length = ofLittleEndian header ∧
      UInt32.ofNat (ofLittleEndian sum) = crc32 body ∧ decodeRow body = .ok row := by
  unfold readRecord at h
  generalize hsize : ofLittleEndian (bytes.take 4) = size at h
  dsimp only at h
  split at h
  · cases h
  rename_i hlong
  split at h
  · cases h
  rename_i hsum
  obtain ⟨decoded, hdecode, hend⟩ := Answer.ok_of_bind_ok h
  cases hend
  refine ⟨bytes.take 4, (bytes.drop 4).take size, (bytes.drop (4 + size)).take 4, ?_, ?_, ?_, ?_,
    Decidable.not_not.mp hsum, hdecode⟩
  · have hbody := List.take_append_drop size (bytes.drop 4)
    have hsum := List.take_append_drop 4 (bytes.drop (4 + size))
    rw [List.drop_drop] at hbody hsum
    rw [show 8 + size = 4 + size + 4 by omega, hsum, hbody, List.take_append_drop]
  · rw [List.length_take]
    omega
  · rw [List.length_take, List.length_drop]
    omega
  · rw [List.length_take, List.length_drop, hsize]
    omega

/-- Bytes that are no record are damage. -/
theorem kind_of_readRecord_error {position : Nat} {bytes : List UInt8} {e : Error}
    (h : readRecord position bytes = .error e) : e.kind = .resource := by
  unfold readRecord at h
  dsimp only at h
  split at h
  · cases h
    rfl
  split at h
  · cases h
    rfl
  rcases Answer.error_of_bind_error h with hdecode | ⟨row, -, hend⟩
  · exact kind_of_decodeRow_error hdecode
  · cases hend

/-! ## A record with a changed byte -/

/-- Of two front parts of the same bytes one goes on where the other ends. -/
theorem exists_append_of_append_eq {body rest body' rest' : List UInt8}
    (h : body ++ rest = body' ++ rest') (hne : body ≠ body') :
    (∃ more, more ≠ [] ∧ body' = body ++ more) ∨ ∃ more, more ≠ [] ∧ body = body' ++ more := by
  have hne_nil {more front : List UInt8} (hmore : front ++ more ≠ front) : more ≠ [] := by
    rintro rfl
    exact hmore (List.append_nil front)
  rcases List.append_eq_append_iff.mp h with ⟨more, hbody, -⟩ | ⟨more, hbody, -⟩
  · exact .inl ⟨more, hne_nil (hbody ▸ hne.symm), hbody⟩
  · exact .inr ⟨more, hne_nil (hbody ▸ hne), hbody⟩

variable {position j : Nat} {b : UInt8} {row : Row} {payload rest : List UInt8}

/-- A wrong length: the row would have to end somewhere else. -/
theorem readRecord_ne_ok_of_length (hdecode : decodeRow payload = .ok row) {header : List UInt8}
    (hlength : header.length = 4) (hsize : ofLittleEndian header ≠ payload.length)
    (p : Row × List UInt8) : readRecord position (header ++ (payload ++ rest)) ≠ .ok p := by
  intro h
  obtain ⟨header', body, sum, hbytes, hheader, -, hbody, -, hdecode'⟩ := exists_of_readRecord h
  obtain ⟨rfl, htail⟩ := List.append_inj hbytes (hlength.trans hheader.symm)
  have hne : payload ≠ body := by
    rintro rfl
    exact hsize hbody.symm
  rcases exists_append_of_append_eq htail hne with ⟨more, hmore, rfl⟩ | ⟨more, hmore, rfl⟩
  · exact decodeRow_append_ne_ok hdecode hmore _ hdecode'
  · exact decodeRow_append_ne_ok hdecode' hmore _ hdecode

/-- A row and a checksum that do not go together. -/
theorem readRecord_ne_ok_of_sum {header body sum : List UInt8} (hheader : header.length = 4)
    (hbody : body.length = ofLittleEndian header) (hlength : sum.length = 4)
    (hsum : UInt32.ofNat (ofLittleEndian sum) ≠ crc32 body) (p : Row × List UInt8) :
    readRecord position (header ++ (body ++ (sum ++ rest))) ≠ .ok p := by
  intro h
  obtain ⟨header', body', sum', hbytes, hheader', hlength', hbody', hsum', -⟩ :=
    exists_of_readRecord h
  obtain ⟨rfl, htail⟩ := List.append_inj hbytes (hheader.trans hheader'.symm)
  obtain ⟨rfl, hsums⟩ := List.append_inj htail (hbody.trans hbody'.symm)
  obtain ⟨rfl, -⟩ := List.append_inj hsums (hlength.trans hlength'.symm)
  exact hsum hsum'

/-- A changed byte of a record belongs to its length, to its row or to its checksum. -/
theorem record_set (hj : j < (record payload).length) (hb : (record payload)[j] ≠ b) :
    (∃ k, ∃ hk : k < (littleEndian 4 payload.length).length,
      (littleEndian 4 payload.length)[k] ≠ b ∧
      (record payload).set j b = (littleEndian 4 payload.length).set k b ++
        (payload ++ littleEndian 4 (crc32 payload).toNat)) ∨
    (∃ k, ∃ hk : k < payload.length, payload[k] ≠ b ∧
      (record payload).set j b = littleEndian 4 payload.length ++
        (payload.set k b ++ littleEndian 4 (crc32 payload).toNat)) ∨
    ∃ k, ∃ hk : k < (littleEndian 4 (crc32 payload).toNat).length,
      (littleEndian 4 (crc32 payload).toNat)[k] ≠ b ∧
      (record payload).set j b = littleEndian 4 payload.length ++
        (payload ++ (littleEndian 4 (crc32 payload).toNat).set k b) := by
  simp only [record, List.append_assoc] at hj hb ⊢
  rw [List.set_append]
  by_cases hfirst : j < (littleEndian 4 payload.length).length
  · rw [List.getElem_append_left hfirst] at hb
    exact .inl ⟨j, hfirst, hb, if_pos hfirst⟩
  rw [if_neg hfirst, List.set_append]
  rw [List.getElem_append_right (Nat.le_of_not_lt hfirst)] at hb
  by_cases hsecond : j - (littleEndian 4 payload.length).length < payload.length
  · rw [List.getElem_append_left hsecond] at hb
    exact .inr (.inl ⟨_, hsecond, hb, by rw [if_pos hsecond]⟩)
  · rw [List.getElem_append_right (Nat.le_of_not_lt hsecond)] at hb
    refine .inr (.inr ⟨_, ?_, hb, by rw [if_neg hsecond]⟩)
    simp only [List.length_append] at hj
    omega

/-- **A record with one changed byte is not read**, whichever byte it is. -/
theorem readRecord_set_ne_ok (hfits : Fits row) (hj : j < (record (encodeRow row)).length)
    (hb : (record (encodeRow row))[j] ≠ b) (p : Row × List UInt8) :
    readRecord position ((record (encodeRow row)).set j b ++ rest) ≠ .ok p := by
  have hdecode := decodeRow_encodeRow (rowFits_of_length_lt hfits)
  unfold Fits at hfits
  generalize encodeRow row = payload at *
  have hsize : ofLittleEndian (littleEndian 4 payload.length) = payload.length :=
    ofLittleEndian_littleEndian 4 _ hfits
  have hheader := length_littleEndian 4 payload.length
  have hlength := length_littleEndian 4 (crc32 payload).toNat
  rcases record_set hj hb with ⟨k, hk, hne, hset⟩ | ⟨k, hk, hne, hset⟩ | ⟨k, hk, hne, hset⟩
  · rw [hset, List.append_assoc, List.append_assoc]
    refine readRecord_ne_ok_of_length hdecode (by rw [List.length_set, hheader]) ?_ p
    exact fun h => ofLittleEndian_set_ne hk hne (h.trans hsize.symm)
  · rw [hset, List.append_assoc, List.append_assoc]
    refine readRecord_ne_ok_of_sum hheader (by rw [List.length_set, hsize]) hlength ?_ p
    rw [ofLittleEndian_littleEndian 4 _ (crc32 payload).toNat_lt, UInt32.ofNat_toNat]
    exact (crc32_set_ne hk hne).symm
  · rw [hset, List.append_assoc, List.append_assoc]
    refine readRecord_ne_ok_of_sum hheader hsize.symm (by rw [List.length_set, hlength]) ?_ p
    exact ofNat_ofLittleEndian_set_ne hk hne

/-! ## Records with a changed byte -/

theorem kind_of_readRecords_error {count : Nat} {bytes : List UInt8} {e : Error}
    (h : readRecords position count bytes = .error e) : e.kind = .resource := by
  induction count generalizing position bytes with
  | zero => cases h
  | succ count ih =>
    unfold readRecords at h
    rcases Answer.error_of_bind_error h with hfirst | ⟨⟨row, left⟩, -, hrest⟩
    · exact kind_of_readRecord_error hfirst
    · rcases Answer.error_of_bind_error hrest with htail | ⟨rows, -, hend⟩
      · exact ih htail
      · cases hend

/-- **Rows of which one record has a changed byte are not read**: those in front of it are, but
not it. -/
theorem readRecords_set_ne_ok {rows : List Row} {i : Nat} (hfits : ∀ row ∈ rows, Fits row)
    (hi : i < (records rows).length) (hb : (records rows)[i] ≠ b) (found : List Row) :
    readRecords position rows.length ((records rows).set i b) ≠ .ok found := by
  induction rows generalizing position i found with
  | nil => exact absurd hi (Nat.not_lt_zero i)
  | cons row rows ih =>
    have hrow := hfits row List.mem_cons_self
    intro h
    rw [List.length_cons, readRecords] at h
    obtain ⟨⟨first, left⟩, hfirst, hrest⟩ := Answer.ok_of_bind_ok h
    obtain ⟨tail, htail, -⟩ := Answer.ok_of_bind_ok hrest
    simp only [records_cons, List.length_append] at hi hb hfirst
    rw [List.set_append] at hfirst
    -- The changed record is the first one, or it is behind that one.
    by_cases hhere : i < (record (encodeRow row)).length
    · rw [if_pos hhere] at hfirst
      rw [List.getElem_append_left hhere] at hb
      exact readRecord_set_ne_ok hrow hhere hb _ hfirst
    · rw [if_neg hhere, readRecord_record position _ hrow] at hfirst
      rw [List.getElem_append_right (Nat.le_of_not_lt hhere)] at hb
      cases hfirst
      exact ih (fun r hr => hfits r (List.mem_cons_of_mem row hr)) (by omega) hb tail htail

end SpillFile

end SqlWindow
