import SqlWindow.Proofs.Text.Utf8
import SqlWindow.Record.Decode

set_option autoImplicit false

/-! # Reading rows back

`Record.decodeRow` undoes `Record.encodeRow` on every row whose lengths can be written in four
bytes. A reader takes a value off the front of the bytes and hands the rest on, so the
statement that goes through the induction is "the bytes of a value, and then any rest".
-/

namespace SqlWindow

namespace Record

variable {α β : Type}

/-! ## Numbers -/

/-- A number is written as the bytes it was read from. -/
theorem littleEndian_ofLittleEndian (bytes : List UInt8) :
    littleEndian bytes.length (ofLittleEndian bytes) = bytes := by
  induction bytes with
  | nil => rfl
  | cons b bytes ih =>
    have hb := b.toNat_lt
    rw [ofLittleEndian, List.length_cons, littleEndian,
      show (b.toNat + 256 * ofLittleEndian bytes) % 256 = b.toNat by omega,
      show (b.toNat + 256 * ofLittleEndian bytes) / 256 = ofLittleEndian bytes by omega, ih,
      UInt8.ofNat_toNat]

theorem ofLittleEndian_lt (bytes : List UInt8) :
    ofLittleEndian bytes < Nat.pow 256 bytes.length := by
  induction bytes with
  | nil => exact Nat.one_pos
  | cons b bytes ih =>
    have hb := b.toNat_lt
    rw [ofLittleEndian, List.length_cons, Nat.pow_eq, Nat.pow_succ]
    rw [Nat.pow_eq] at ih
    omega

/-! ## Steps of reading -/

/-- A reader goes on from what its first step leaves. -/
theorem bind_eq_of_eq_ok {x : Reader α} {f : α → Reader β} {bytes rest : List UInt8} {a : α}
    (h : x bytes = .ok (a, rest)) : (x >>= f) bytes = f a rest := by
  show (x bytes >>= fun p => f p.1 p.2) = _
  rw [h]
  rfl

theorem takeBytes_append (part : String) (bytes rest : List UInt8) :
    takeBytes bytes.length part (bytes ++ rest) = .ok (bytes, rest) := by
  rw [takeBytes, if_neg (by simp), List.take_left, List.drop_left]

theorem takeNat_littleEndian {width n : Nat} (part : String) (rest : List UInt8)
    (h : n < Nat.pow 256 width) :
    takeNat width part (littleEndian width n ++ rest) = .ok (n, rest) := by
  have hbytes := takeBytes_append part (littleEndian width n) rest
  rw [length_littleEndian] at hbytes
  rw [takeNat, bind_eq_of_eq_ok hbytes, ofLittleEndian_littleEndian width n h]
  rfl

theorem takeInt64_encodeInt64 (part : String) (i : Int64) (rest : List UInt8) :
    takeInt64 part (encodeInt64 i ++ rest) = .ok (i, rest) := by
  have hlt : i.toUInt64.toNat < Nat.pow 256 8 := i.toUInt64.toNat_lt
  rw [takeInt64, encodeInt64, bind_eq_of_eq_ok (takeNat_littleEndian part rest hlt)]
  show Except.ok (Int64.ofNat i.toUInt64.toNat, rest) = _
  rw [Int64.ofNat]
  simp

/-- The text is short enough for its length to be written. -/
def TextFits (s : String) : Prop := (Utf8.encode s).length < UInt32.size

theorem takeText_encodeText {s : String} (part : String) (rest : List UInt8) (h : TextFits s) :
    takeText part (encodeText s ++ rest) = .ok (s, rest) := by
  rw [takeText, encodeText, List.append_assoc,
    bind_eq_of_eq_ok (takeNat_littleEndian part _ h),
    bind_eq_of_eq_ok (takeBytes_append part (Utf8.encode s) rest), Utf8.decode_encode]
  rfl

/-! ## Values -/

/-- The lengths inside a value can be written. -/
def ValueFits : Value → Prop
  | .text s | .json s => TextFits s
  | _ => True

theorem takeNat_tag (tag : UInt8) (rest : List UInt8) :
    takeNat 1 "type tag" (tag :: rest) = .ok (tag.toNat, rest) := rfl

theorem toInt_ofInt_seconds (t : Timestamp) : (Int64.ofInt t.seconds).toInt = t.seconds := by
  obtain ⟨hmin, hmax, -⟩ := t.valid
  unfold Timestamp.minSeconds at hmin
  unfold Timestamp.maxSeconds at hmax
  exact Int64.toInt_ofInt_of_le (by omega) (by omega)

theorem nanos_lt (t : Timestamp) : t.nanos < Nat.pow 256 4 := by
  obtain ⟨-, -, hnanos⟩ := t.valid
  unfold Timestamp.nanosPerSecond at hnanos
  show t.nanos < 4294967296
  omega

/-- A value is read back from its bytes. -/
theorem takeValue_encodeValue {v : Value} (rest : List UInt8) (h : ValueFits v) :
    takeValue (encodeValue v ++ rest) = .ok (v, rest) := by
  cases v with
  | null type => cases type <;> rfl
  | boolean b => cases b <;> rfl
  | integer i =>
    -- as in all cases below, the tag comes off first and says what is read behind it
    show takeValue (2 :: (encodeInt64 i ++ rest)) = _
    rw [takeValue, bind_eq_of_eq_ok (takeNat_tag 2 _)]
    show (takeInt64 "integer value" >>= fun i => pure (Value.integer i)) _ = _
    rw [bind_eq_of_eq_ok (takeInt64_encodeInt64 _ i rest)]
    rfl
  | float x =>
    show takeValue (3 :: (littleEndian 8 x.bits.toNat ++ rest)) = _
    rw [takeValue, bind_eq_of_eq_ok (takeNat_tag 3 _)]
    show (takeNat 8 "float value" >>= fun n => pure (Value.float ⟨UInt64.ofNat n⟩)) _ = _
    rw [bind_eq_of_eq_ok (takeNat_littleEndian _ rest x.bits.toNat_lt), UInt64.ofNat_toNat]
    rfl
  | text s =>
    show takeValue (4 :: (encodeText s ++ rest)) = _
    rw [takeValue, bind_eq_of_eq_ok (takeNat_tag 4 _)]
    show (takeText "text data" >>= fun s => pure (Value.text s)) _ = _
    rw [bind_eq_of_eq_ok (takeText_encodeText _ rest h)]
    rfl
  | json s =>
    show takeValue (6 :: (encodeText s ++ rest)) = _
    rw [takeValue, bind_eq_of_eq_ok (takeNat_tag 6 _)]
    show (takeText "json data" >>= fun s => pure (Value.json s)) _ = _
    rw [bind_eq_of_eq_ok (takeText_encodeText _ rest h)]
    rfl
  | timestamp t =>
    show takeValue
      (8 :: (encodeInt64 (Int64.ofInt t.seconds) ++ littleEndian 4 t.nanos ++ rest)) = _
    rw [takeValue, bind_eq_of_eq_ok (takeNat_tag 8 _), List.append_assoc]
    show (takeInt64 "timestamp seconds" >>= _) _ = _
    rw [bind_eq_of_eq_ok (takeInt64_encodeInt64 _ _ _)]
    rw [bind_eq_of_eq_ok (takeNat_littleEndian _ rest (nanos_lt t)), toInt_ofInt_seconds,
      Timestamp.ofParts?_eq_some]
    rfl

/-! ## Rows -/

/-- The lengths inside a row can be written. -/
def RowFits (row : Row) : Prop := row.length < UInt32.size ∧ ∀ v ∈ row, ValueFits v

theorem takeValues_flatMap {values : List Value} (rest : List UInt8)
    (h : ∀ v ∈ values, ValueFits v) :
    takeValues values.length (values.flatMap encodeValue ++ rest) = .ok (values, rest) := by
  induction values with
  | nil => rfl
  | cons v values ih =>
    rw [List.flatMap_cons, List.append_assoc, List.length_cons, takeValues,
      bind_eq_of_eq_ok (takeValue_encodeValue _ (h v List.mem_cons_self)),
      bind_eq_of_eq_ok (ih fun w hw => h w (List.mem_cons_of_mem v hw))]
    rfl

/-- **Reading undoes writing.** A row whose lengths can be written is read back from its
bytes, value for value. -/
theorem decodeRow_encodeRow {row : Row} (h : RowFits row) :
    decodeRow (encodeRow row) = .ok row := by
  have hcount := @takeNat_littleEndian 4 _ "value count" (row.flatMap encodeValue) h.1
  have hvalues := takeValues_flatMap [] h.2
  rw [List.append_nil] at hvalues
  show (takeNat 4 "value count" (encodeRow row) >>= fun p => takeValues p.1 p.2 >>= fun q =>
    if q.2.isEmpty then pure q.1 else throw _) = _
  rw [encodeRow, hcount]
  show (takeValues row.length _ >>= _) = _
  rw [hvalues]
  rfl

/-! ## Rows with short encodings -/

theorem length_encodeValue_pos (v : Value) : 0 < (encodeValue v).length := by
  cases v <;> exact Nat.succ_pos _

/-- A value whose bytes are few has short texts. -/
theorem valueFits_of_length_lt {v : Value} (h : (encodeValue v).length < UInt32.size) :
    ValueFits v := by
  have htext (tag : UInt8) (s : String) (hs : (tag :: encodeText s).length < UInt32.size) :
      TextFits s := by
    rw [encodeText, List.length_cons, List.length_append, length_littleEndian] at hs
    unfold TextFits
    omega
  cases v with
  | text s => exact htext 4 s h
  | json s => exact htext 6 s h
  | _ => trivial

/-- Every value takes a byte at least. -/
theorem length_le_length_flatMap (values : List Value) :
    values.length ≤ (values.flatMap encodeValue).length := by
  induction values with
  | nil => exact Nat.zero_le _
  | cons v values ih =>
    have hpos := length_encodeValue_pos v
    rw [List.flatMap_cons, List.length_append, List.length_cons]
    omega

/-- In a row that takes less than 2³² bytes every length can be written. -/
theorem rowFits_of_length_lt {row : Row} (h : (encodeRow row).length < UInt32.size) :
    RowFits row := by
  rw [encodeRow, List.length_append, length_littleEndian] at h
  constructor
  · have hcount := length_le_length_flatMap row
    omega
  · intro v hv
    have hle : (encodeValue v).length ≤ (row.flatMap encodeValue).length :=
      (List.sublist_flatten_of_mem (List.mem_map_of_mem hv)).length_le
    exact valueFits_of_length_lt (by omega)

/-! ## Rows with short texts -/

/-- **Every row is read back** that has fewer than 2³² values and no text or document of 2³² bytes
or more: the same variants in the same order, a NULL with its type, a double with its bits, a
moment with its leap second. -/
theorem row_read_back {row : Row} (hcount : row.length < UInt32.size)
    (htexts : ∀ v ∈ row, ∀ s ∈ v.toText?, s.utf8ByteSize < UInt32.size) :
    decodeRow (encodeRow row) = .ok row := by
  refine decodeRow_encodeRow ⟨hcount, fun v hv => ?_⟩
  have htext (s : String) (hs : v.toText? = some s) : TextFits s := by
    rw [TextFits, Utf8.length_encode]
    exact htexts v hv s hs
  cases v with
  | text s => exact htext s rfl
  | json s => exact htext s rfl
  | _ => trivial

/-- A value of each kind: a NULL of a type, the least integer, a double that is not a number and
has a payload, and the leap second at the end of the year 1969. -/
theorem row_of_all_kinds_read_back :
    let row : Row := [.null .timestamp, .boolean true, .integer Int64.minValue,
      .float ⟨0xFFF8000000000007⟩, .text "Ωmega 𝄞", .json "[1, null]", .text "",
      .timestamp ⟨-1, 1500000000, by decide⟩]
    decodeRow (encodeRow row) = .ok row :=
  row_read_back (by decide) (by decide)

end Record

end SqlWindow
