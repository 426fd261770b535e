import SqlWindow.Proofs.Record.RoundTrip
import SqlWindow.Proofs.Record.Sequential

set_option autoImplicit false

/-! # What is read at all

A reader that succeeds has taken off the front of the bytes just what is written for its result,
with the two exceptions that `Record.Decode` names: any byte but 0 is read as a true boolean, and
any byte that is the code of no type as that of a NULL without type. So bytes that are a row are
those the row is written as, up to these single bytes, and they are as many. Together with the
fact that no row goes on behind a row, this settles which bytes are rows at all.
-/

namespace SqlWindow

namespace Record

variable {α β : Type}

/-! ## Readers -/

/-- A sequence of readers that succeeds is two successes. -/
theorem ok_of_bind_ok {x : Reader α} {f : α → Reader β} {bytes rest : List UInt8} {b : β}
    (h : (x >>= f) bytes = .ok (b, rest)) :
    ∃ a left, x bytes = .ok (a, left) ∧ f a left = .ok (b, rest) := by
  obtain ⟨⟨a, left⟩, hfirst, hrest⟩ := Answer.ok_of_bind_ok (x := x bytes) h
  exact ⟨a, left, hfirst, hrest⟩

variable {part : String} {bytes rest : List UInt8}

theorem takeBytes_ok {count : Nat} {front : List UInt8}
    (h : takeBytes count part bytes = .ok (front, rest)) :
    bytes = front ++ rest ∧ front.length = count := by
  unfold takeBytes at h
  split at h
  case isTrue hshort => cases h
  case isFalse hlong =>
    cases h
    rw [List.take_append_drop, List.length_take]
    exact ⟨rfl, by omega⟩

theorem takeNat_ok {width n : Nat} (h : takeNat width part bytes = .ok (n, rest)) :
    bytes = littleEndian width n ++ rest ∧ n < Nat.pow 256 width := by
  obtain ⟨front, left, hfront, hn⟩ := ok_of_bind_ok h
  obtain ⟨rfl, rfl⟩ := takeBytes_ok hfront
  cases hn
  exact ⟨by rw [littleEndian_ofLittleEndian], ofLittleEndian_lt front⟩

theorem takeInt64_ok {i : Int64} (h : takeInt64 part bytes = .ok (i, rest)) :
    bytes = encodeInt64 i ++ rest := by
  obtain ⟨n, left, hn, hi⟩ := ok_of_bind_ok h
  obtain ⟨rfl, hlt⟩ := takeNat_ok hn
  cases hi
  have hbits : (Int64.ofNat n).toUInt64.toNat = n := by
    show (UInt64.ofNat n).toNat = n
    rw [UInt64.toNat_ofNat']
    exact Nat.mod_eq_of_lt hlt
  rw [encodeInt64, hbits]

theorem takeText_ok {s : String} (h : takeText part bytes = .ok (s, rest)) :
    bytes = encodeText s ++ rest ∧ TextFits s := by
  obtain ⟨count, left, hcount, hbody⟩ := ok_of_bind_ok h
  obtain ⟨front, left', hfront, hdecode⟩ := ok_of_bind_ok hbody
  clear h hbody
  obtain ⟨rfl, hlt⟩ := takeNat_ok hcount
  obtain ⟨rfl, rfl⟩ := takeBytes_ok hfront
  cases hs : Utf8.decode front with
  | error e =>
    rw [hs] at hdecode
    cases hdecode
  | ok s' =>
    rw [hs] at hdecode
    cases hdecode
    rw [encodeText, TextFits, Utf8.encode_of_decode hs, List.append_assoc]
    exact ⟨rfl, hlt⟩

/-! ## Values -/

/-- Bytes that are read as a value. -/
inductive IsReadAs : Value → List UInt8 → Prop where
  | written (v : Value) : IsReadAs v (encodeValue v)
  /-- Any byte but 0 is a true boolean. -/
  | boolean (b : UInt8) (hb : b ≠ 0) : IsReadAs (.boolean true) [1, b]
  /-- Any byte that is the code of no type stands for an unknown type. -/
  | null (b : UInt8) (hb : DataType.ofCode? b = none) : IsReadAs (.null .null) [0, b]

theorem IsReadAs.length_eq {v : Value} {bytes : List UInt8} (h : IsReadAs v bytes) :
    (encodeValue v).length = bytes.length := by
  cases h <;> rfl

theorem code_of_ofCode? {b : UInt8} {type : DataType} (h : DataType.ofCode? b = some type) :
    type.code = b := by
  have hcode : (type.code == b) = true :=
    @List.find?_some _ (fun type : DataType => type.code == b) _ _ h
  exact eq_of_beq hcode

theorem seconds_nanos_of_ofParts? {seconds : Int} {nanos : Nat} {t : Timestamp}
    (h : Timestamp.ofParts? seconds nanos = some t) : t.seconds = seconds ∧ t.nanos = nanos := by
  unfold Timestamp.ofParts? at h
  split at h
  · cases h
    exact ⟨rfl, rfl⟩
  · cases h

theorem isReadAs_null (b : UInt8) :
    IsReadAs (.null ((DataType.ofCode? b).getD .null)) [0, b] := by
  cases htype : DataType.ofCode? b with
  | some type =>
    rw [← code_of_ofCode? htype]
    exact .written (.null type)
  | none => exact .null b htype

theorem isReadAs_boolean {n : Nat} (h : n < 256) :
    IsReadAs (.boolean (n != 0)) [1, UInt8.ofNat n] := by
  by_cases hn : n = 0
  · subst hn
    exact .written (.boolean false)
  · have hb : UInt8.ofNat n ≠ 0 := by
      intro hzero
      have hnat := congrArg UInt8.toNat hzero
      rw [UInt8.toNat_ofNat', Nat.mod_eq_of_lt h] at hnat
      exact hn hnat
    rw [bne_iff_ne.mpr hn]
    exact .boolean _ hb

theorem littleEndian_one {n : Nat} (h : n < 256) : littleEndian 1 n = [UInt8.ofNat n] := by
  show [UInt8.ofNat (n % 256)] = [UInt8.ofNat n]
  rw [Nat.mod_eq_of_lt h]

/-- **Reading one value.** The bytes that were taken are read as the value, whose lengths can be
written. -/
theorem takeValue_ok {v : Value} (h : takeValue bytes = .ok (v, rest)) :
    ∃ front, bytes = front ++ rest ∧ IsReadAs v front ∧ ValueFits v := by
  obtain ⟨tag, left, htag, hbody⟩ := ok_of_bind_ok h
  clear h
  obtain ⟨rfl, -⟩ := takeNat_ok htag
  clear htag
  -- one case for each kind of value, in the order of their tags
  split at hbody
  case h_1 => -- NULL
    obtain ⟨n, left', hn, hv⟩ := ok_of_bind_ok hbody
    obtain ⟨rfl, hlt⟩ := takeNat_ok hn
    cases hv
    refine ⟨[0, UInt8.ofNat n], ?_, isReadAs_null _, trivial⟩
    rw [littleEndian_one hlt]
    rfl
  case h_2 => -- boolean
    obtain ⟨n, left', hn, hv⟩ := ok_of_bind_ok hbody
    obtain ⟨rfl, hlt⟩ := takeNat_ok hn
    cases hv
    refine ⟨[1, UInt8.ofNat n], ?_, isReadAs_boolean hlt, trivial⟩
    rw [littleEndian_one hlt]
    rfl
  case h_3 => -- integer
    obtain ⟨i, left', hi, hv⟩ := ok_of_bind_ok hbody
    obtain rfl := takeInt64_ok hi
    cases hv
    exact ⟨_, rfl, .written (.integer i), trivial⟩
  case h_4 => -- float
    obtain ⟨n, left', hn, hv⟩ := ok_of_bind_ok hbody
    obtain ⟨rfl, hlt⟩ := takeNat_ok hn
    cases hv
    have hbits : (UInt64.ofNat n).toNat = n := by
      rw [UInt64.toNat_ofNat']
      exact Nat.mod_eq_of_lt hlt
    refine ⟨3 :: littleEndian 8 n, rfl, ?_, trivial⟩
    have hwritten := IsReadAs.written (.float ⟨UInt64.ofNat n⟩)
    rwa [encodeValue, hbits] at hwritten
  case h_5 => -- text
    obtain ⟨s, left', hs, hv⟩ := ok_of_bind_ok hbody
    obtain ⟨rfl, hfits⟩ := takeText_ok hs
    cases hv
    exact ⟨_, rfl, .written (.text s), hfits⟩
  case h_6 => -- JSON
    obtain ⟨s, left', hs, hv⟩ := ok_of_bind_ok hbody
    obtain ⟨rfl, hfits⟩ := takeText_ok hs
    cases hv
    exact ⟨_, rfl, .written (.json s), hfits⟩
  case h_7 => -- timestamp
    obtain ⟨seconds, left', hseconds, hnanos⟩ := ok_of_bind_ok hbody
    obtain rfl := takeInt64_ok hseconds
    obtain ⟨nanos, left'', hn, hv⟩ := ok_of_bind_ok hnanos
    obtain ⟨rfl, hlt⟩ := takeNat_ok hn
    clear hbody hseconds hnanos hn
    cases ht : Timestamp.ofParts? seconds.toInt nanos with
    | none =>
      rw [ht] at hv
      cases hv
    | some t =>
      rw [ht] at hv
      cases hv
      obtain ⟨htseconds, rfl⟩ := seconds_nanos_of_ofParts? ht
      have hwritten := IsReadAs.written (.timestamp t)
      rw [encodeValue, htseconds, Int64.ofInt_toInt] at hwritten
      refine ⟨_, ?_, hwritten, trivial⟩
      rw [List.cons_append, List.append_assoc]
      rfl
  case h_8 => -- no kind of value
    cases hbody

/-- **Reading values.** -/
theorem takeValues_ok {count : Nat} {values : List Value}
    (h : takeValues count bytes = .ok (values, rest)) :
    values.length = count ∧ (∀ v ∈ values, ValueFits v) ∧
      ∃ fronts, bytes = fronts.flatten ++ rest ∧ List.Forall₂ IsReadAs values fronts := by
  induction count generalizing bytes values with
  | zero =>
    cases h
    exact ⟨rfl, fun v hv => absurd hv List.not_mem_nil, [], rfl, .nil⟩
  | succ count ih =>
    obtain ⟨v, left, hv, hbody⟩ := ok_of_bind_ok h
    obtain ⟨values', left', hvalues, hlist⟩ := ok_of_bind_ok hbody
    cases hlist
    obtain ⟨front, rfl, hread, hfits⟩ := takeValue_ok hv
    obtain ⟨hlength, hfits', fronts, rfl, hreads⟩ := ih hvalues
    refine ⟨congrArg Nat.succ hlength, List.forall_mem_cons.mpr ⟨hfits, hfits'⟩,
      front :: fronts, ?_, .cons hread hreads⟩
    rw [List.flatten_cons, List.append_assoc]

/-! ## Rows -/

/-- **Reading a row.** Bytes that are a row are the number of its values and, value by value, bytes
that are read as the value. -/
theorem decodeRow_ok {row : Row} (h : decodeRow bytes = .ok row) :
    RowFits row ∧ ∃ fronts, bytes = littleEndian 4 row.length ++ fronts.flatten ∧
      List.Forall₂ IsReadAs row fronts := by
  obtain ⟨count, left, hcount, hvalues⟩ := ok_of_bind_ok (takeRow_of_decodeRow h)
  clear h
  obtain ⟨rfl, hlt⟩ := takeNat_ok hcount
  clear hcount
  obtain ⟨rfl, hfits, fronts, rfl, hreads⟩ := takeValues_ok hvalues
  exact ⟨⟨hlt, hfits⟩, fronts, by rw [List.append_nil], hreads⟩

theorem length_flatMap_encodeValue {values : List Value} {fronts : List (List UInt8)}
    (h : List.Forall₂ IsReadAs values fronts) :
    (values.flatMap encodeValue).length = fronts.flatten.length := by
  induction h with
  | nil => rfl
  | cons hread hreads ih =>
    rw [List.flatMap_cons, List.flatten_cons, List.length_append, List.length_append,
      hread.length_eq, ih]

/-- Bytes that are no row are refused as damage of the spilled rows. -/
theorem exists_error_of_ne_ok (h : ∀ row, decodeRow bytes ≠ .ok row) :
    ∃ e, decodeRow bytes = .error e ∧ e.kind = .resource := by
  cases hbytes : decodeRow bytes with
  | ok row => exact absurd hbytes (h row)
  | error e => exact ⟨e, rfl, kind_of_decodeRow_error hbytes⟩

/-- **Which bytes are a row.** Bytes that are read as a row are the ones it is written as, up to
the bytes of true booleans and of NULLs without type; what is written for it is as long and is
read as the same row; and neither what the bytes start with nor anything that starts with them is
a row. Whatever is not a row is refused as damage of the spilled rows. -/
theorem bytes_of_row (bytes : List UInt8) :
    (∀ row, decodeRow bytes = .ok row →
      (∃ fronts, bytes = littleEndian 4 row.length ++ fronts.flatten ∧
        encodeRow row = littleEndian 4 row.length ++ (row.map encodeValue).flatten ∧
        List.Forall₂ IsReadAs row fronts) ∧
      (encodeRow row).length = bytes.length ∧
      decodeRow (encodeRow row) = .ok row ∧
      (∀ front back, front ++ back = bytes → back ≠ [] →
        ∃ e, decodeRow front = .error e ∧ e.kind = .resource) ∧
      ∀ more, more ≠ [] → ∃ e, decodeRow (bytes ++ more) = .error e ∧ e.kind = .resource) ∧
    ∀ e, decodeRow bytes = .error e → e.kind = .resource := by
  refine ⟨fun row h => ?_, fun e h => kind_of_decodeRow_error h⟩
  obtain ⟨hfits, fronts, hbytes, hreads⟩ := decodeRow_ok h
  refine ⟨⟨fronts, hbytes, rfl, hreads⟩, ?_, decodeRow_encodeRow hfits, ?_, ?_⟩
  · rw [hbytes, encodeRow, List.length_append, List.length_append,
      length_flatMap_encodeValue hreads]
  · rintro front back rfl hback
    exact exists_error_of_ne_ok fun row' hfront => decodeRow_append_ne_ok hfront hback row h
  · intro more hmore
    exact exists_error_of_ne_ok fun row' => decodeRow_append_ne_ok h hmore row'

/-- A true boolean from the byte 7, a NULL from a code of no type, and a text with a character of
two bytes: written with 1 and 0 in place of those bytes, and no row with a byte less or more. -/
theorem bytes_of_row_read_freely :
    let row : Row := [.boolean true, .null .null, .text "é"]
    let bytes : List UInt8 := [3, 0, 0, 0, 1, 7, 0, 99, 4, 2, 0, 0, 0, 0xC3, 0xA9]
    decodeRow bytes = .ok row ∧
      encodeRow row = [3, 0, 0, 0, 1, 1, 0, 0, 4, 2, 0, 0, 0, 0xC3, 0xA9] ∧
      decodeRow (encodeRow row) = .ok row ∧
      (∃ e, decodeRow bytes.dropLast = .error e ∧ e.kind = .resource) ∧
      ∀ b, ∃ e, decodeRow (bytes ++ [b]) = .error e ∧ e.kind = .resource := by
  intro row bytes
  have hrow : decodeRow bytes = .ok row := rfl
  obtain ⟨-, -, hread, hfront, hmore⟩ := (bytes_of_row bytes).1 row hrow
  refine ⟨hrow, by decide +kernel, hread, hfront bytes.dropLast [0xA9] rfl (by simp), ?_⟩
  exact fun b => hmore [b] (by simp)

end Record

end SqlWindow
