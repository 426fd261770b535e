import SqlWindow.Text.Utf8

set_option autoImplicit false

/-! # Reading UTF-8 back

`Utf8.decode` undoes `Utf8.encode`. A character is written in one to four bytes, and the reader
takes them one at a time; each kind of byte has its own lemma, and a character is put together
from them by the number of its bytes. The other way round, bytes that are read at all are those
that `Utf8.encode` writes for what is read, and these are the bytes of the string.
-/

namespace SqlWindow

namespace Utf8

/-! ## One byte at a time -/

theorem decodeFrom_ascii {i : Nat} {b : UInt8} {rest : List UInt8} (h : b.toNat < 0x80) :
    decodeFrom i none (b :: rest) =
      (Char.ofNat b.toNat :: ·) <$> decodeFrom (i + 1) none rest := by
  rw [decodeFrom]
  simp only [h, if_true]

theorem decodeFrom_lead {i : Nat} {b : UInt8} {rest : List UInt8} {missing low high code : Nat}
    (hb : 0x80 ≤ b.toNat) (h : lead? b.toNat = some (missing, low, high, code)) :
    decodeFrom i none (b :: rest) =
      decodeFrom (i + 1) (some ⟨i, 1, missing, low, high, code⟩) rest := by
  rw [decodeFrom]
  simp only [Nat.not_lt.mpr hb, if_false, h]

theorem decodeFrom_last {i start read low high code : Nat} {b : UInt8} {rest : List UInt8}
    (hlow : low ≤ b.toNat) (hhigh : b.toNat ≤ high) :
    decodeFrom i (some ⟨start, read, 1, low, high, code⟩) (b :: rest) =
      (Char.ofNat (code * 64 + (b.toNat - 0x80)) :: ·) <$> decodeFrom (i + 1) none rest := by
  rw [decodeFrom]
  simp only [show ¬(b.toNat < low ∨ high < b.toNat) by omega, if_false, if_true]

theorem decodeFrom_inner (missing : Nat) {i start read low high code : Nat} {b : UInt8}
    {rest : List UInt8} (hlow : low ≤ b.toNat) (hhigh : b.toNat ≤ high) :
    decodeFrom i (some ⟨start, read, missing + 2, low, high, code⟩) (b :: rest) =
      decodeFrom (i + 1) (some ⟨start, read + 1, missing + 1, 0x80, 0xBF,
        code * 64 + (b.toNat - 0x80)⟩) rest := by
  rw [decodeFrom]
  simp only [show ¬(b.toNat < low ∨ high < b.toNat) by omega,
    show ¬(missing + 2 = 1) by omega, if_false]
  rfl

/-! ## What a lead byte announces -/

/-- A byte built from a number below 256 has that number. -/
theorem toNat_byte {n : Nat} (h : n < 256) : (UInt8.ofNat n).toNat = n := by
  rw [UInt8.toNat_ofNat']
  omega

/-- Surrogates are no characters. -/
theorem toNat_lt_or (c : Char) : c.toNat < 0xD800 ∨ (0xDFFF < c.toNat ∧ c.toNat < 0x110000) :=
  c.valid

theorem lead?_two {k : Nat} (hlow : 2 ≤ k) (hhigh : k < 32) :
    lead? (0xC0 + k) = some (1, 0x80, 0xBF, k) := by
  rw [lead?, if_neg (by omega), if_pos (by omega), Nat.add_sub_cancel_left]

theorem lead?_three {k : Nat} (h : k < 16) :
    lead? (0xE0 + k) =
      some (2, if k = 0 then 0xA0 else 0x80, if k = 13 then 0x9F else 0xBF, k) := by
  rw [lead?, if_neg (by omega), if_neg (by omega)]
  by_cases h0 : k = 0
  · subst h0; rfl
  by_cases h13 : k = 13
  · subst h13; rfl
  rw [if_neg (by omega), if_neg (by omega), if_pos (by omega), if_neg h0, if_neg h13,
    Nat.add_sub_cancel_left]

theorem lead?_four {k : Nat} (h : k < 5) :
    lead? (0xF0 + k) =
      some (3, if k = 0 then 0x90 else 0x80, if k = 4 then 0x8F else 0xBF, k) := by
  rw [lead?, if_neg (by omega), if_neg (by omega), if_neg (by omega), if_neg (by omega),
    if_neg (by omega)]
  by_cases h0 : k = 0
  · subst h0; rfl
  by_cases h4 : k = 4
  · subst h4; rfl
  rw [if_neg (by omega), if_pos (by omega), if_neg h0, if_neg h4, Nat.add_sub_cancel_left]

/-! ## Characters and texts -/

/-- The bytes of a character are read as that character. -/
theorem decodeFrom_encodeChar (i : Nat) (c : Char) (rest : List UInt8) :
    decodeFrom i none (encodeChar c ++ rest) =
      (c :: ·) <$> decodeFrom (i + (encodeChar c).length) none rest := by
  have hc : Char.ofNat c.toNat = c := Char.ofNat_toNat c
  have hv := toNat_lt_or c
  unfold encodeChar
  generalize c.toNat = n at *
  have hlast : (UInt8.ofNat (0x80 + n % 64)).toNat = 0x80 + n % 64 := toNat_byte (by omega)
  have hmid : (UInt8.ofNat (0x80 + n / 64 % 64)).toNat = 0x80 + n / 64 % 64 :=
    toNat_byte (by omega)
  -- One to four bytes: the first tells how many follow, and each of these has six bits.
  by_cases h1 : n < 0x80
  · have hb : (UInt8.ofNat n).toNat = n := toNat_byte (by omega)
    rw [if_pos h1, List.singleton_append, decodeFrom_ascii (by omega), hb, hc,
      List.length_singleton]
  by_cases h2 : n < 0x800
  · have hb : (UInt8.ofNat (0xC0 + n / 64)).toNat = 0xC0 + n / 64 := toNat_byte (by omega)
    rw [if_neg h1, if_pos h2]
    show decodeFrom i none (_ :: _ :: rest) = _
    rw [decodeFrom_lead (by omega) (hb ▸ lead?_two (by omega) (by omega)),
      decodeFrom_last (by omega) (by omega), hlast,
      show n / 64 * 64 + (0x80 + n % 64 - 0x80) = n by omega, hc]
    rfl
  by_cases h3 : n < 0x10000
  · have hb : (UInt8.ofNat (0xE0 + n / 4096)).toNat = 0xE0 + n / 4096 := toNat_byte (by omega)
    rw [if_neg h1, if_neg h2, if_pos h3]
    show decodeFrom i none (_ :: _ :: _ :: rest) = _
    rw [decodeFrom_lead (by omega) (hb ▸ lead?_three (by omega)),
      decodeFrom_inner 0 (by rw [hmid]; split <;> omega) (by rw [hmid]; split <;> omega),
      decodeFrom_last (by omega) (by omega), hlast, hmid,
      show (n / 4096 * 64 + (0x80 + n / 64 % 64 - 0x80)) * 64 + (0x80 + n % 64 - 0x80) = n by
        omega, hc]
    rfl
  · have hb : (UInt8.ofNat (0xF0 + n / 262144)).toNat = 0xF0 + n / 262144 :=
      toNat_byte (by omega)
    have hsecond : (UInt8.ofNat (0x80 + n / 4096 % 64)).toNat = 0x80 + n / 4096 % 64 :=
      toNat_byte (by omega)
    rw [if_neg h1, if_neg h2, if_neg h3]
    show decodeFrom i none (_ :: _ :: _ :: _ :: rest) = _
    rw [decodeFrom_lead (by omega) (hb ▸ lead?_four (by omega)),
      decodeFrom_inner 1 (by rw [hsecond]; split <;> omega)
        (by rw [hsecond]; split <;> omega),
      decodeFrom_inner 0 (by omega) (by omega),
      decodeFrom_last (by omega) (by omega), hlast, hmid, hsecond,
      show ((n / 262144 * 64 + (0x80 + n / 4096 % 64 - 0x80)) * 64 +
        (0x80 + n / 64 % 64 - 0x80)) * 64 + (0x80 + n % 64 - 0x80) = n by omega, hc]
    rfl

theorem decodeFrom_flatMap (i : Nat) (cs : List Char) :
    decodeFrom i none (cs.flatMap encodeChar) = .ok cs := by
  induction cs generalizing i with
  | nil => rfl
  | cons c cs ih =>
    rw [List.flatMap_cons, decodeFrom_encodeChar, ih]
    rfl

/-- **Reading undoes writing.** -/
theorem decode_encode (s : String) : decode (encode s) = .ok s := by
  rw [decode, encode, decodeFrom_flatMap]
  show Except.ok (String.ofList s.toList) = _
  rw [String.ofList_toList]

/-! ## Writing undoes reading -/

/-- What lead bytes there are: those of two, three and four bytes. -/
theorem lead?_cases {b : Nat} {announced : Nat × Nat × Nat × Nat} (h : lead? b = some announced) :
    (∃ k, 2 ≤ k ∧ k < 32 ∧ b = 0xC0 + k) ∨ (∃ k, k < 16 ∧ b = 0xE0 + k) ∨
      ∃ k, k < 5 ∧ b = 0xF0 + k := by
  by_cases hb : 0xC2 ≤ b ∧ b ≤ 0xF4
  · by_cases h2 : b ≤ 0xDF
    · exact .inl ⟨b - 0xC0, by omega, by omega, by omega⟩
    by_cases h3 : b ≤ 0xEF
    · exact .inr (.inl ⟨b - 0xE0, by omega, by omega⟩)
    · exact .inr (.inr ⟨b - 0xF0, by omega, by omega⟩)
  · unfold lead? at h
    repeat' split at h
    all_goals first | omega | cases h

/-- What is read inside a character starts with a byte in the range that is asked for. -/
theorem pending_ok {i start read missing low high code : Nat} {bytes : List UInt8} {cs : List Char}
    (h : decodeFrom i (some ⟨start, read, missing, low, high, code⟩) bytes = .ok cs) :
    ∃ b rest, bytes = b :: rest ∧ low ≤ b.toNat ∧ b.toNat ≤ high := by
  cases bytes with
  | nil => cases h
  | cons b rest =>
    rw [decodeFrom] at h
    by_cases hb : b.toNat < low ∨ high < b.toNat
    · simp only [hb, if_true] at h
      cases h
    · exact ⟨b, rest, rfl, by omega, by omega⟩

theorem map_cons_ok {c : Char} {x : Except Malformed (List Char)} {cs : List Char}
    (h : (c :: ·) <$> x = .ok cs) : ∃ cs', x = .ok cs' ∧ cs = c :: cs' := by
  cases x with
  | ok cs' =>
    cases h
    exact ⟨cs', rfl, rfl⟩
  | error e => cases h

theorem last_ok {i start read low high code : Nat} {bytes : List UInt8} {cs : List Char}
    (h : decodeFrom i (some ⟨start, read, 1, low, high, code⟩) bytes = .ok cs) :
    ∃ b rest cs', bytes = b :: rest ∧ low ≤ b.toNat ∧ b.toNat ≤ high ∧
      cs = Char.ofNat (code * 64 + (b.toNat - 0x80)) :: cs' ∧
      decodeFrom (i + 1) none rest = .ok cs' := by
  obtain ⟨b, rest, rfl, hlow, hhigh⟩ := pending_ok h
  rw [decodeFrom_last hlow hhigh] at h
  obtain ⟨cs', hrest, rfl⟩ := map_cons_ok h
  exact ⟨b, rest, cs', rfl, hlow, hhigh, rfl, hrest⟩

theorem inner_ok {i start read missing low high code : Nat} {bytes : List UInt8} {cs : List Char}
    (h : decodeFrom i (some ⟨start, read, missing + 2, low, high, code⟩) bytes = .ok cs) :
    ∃ b rest, bytes = b :: rest ∧ low ≤ b.toNat ∧ b.toNat ≤ high ∧
      decodeFrom (i + 1) (some ⟨start, read + 1, missing + 1, 0x80, 0xBF,
        code * 64 + (b.toNat - 0x80)⟩) rest = .ok cs := by
  obtain ⟨b, rest, rfl, hlow, hhigh⟩ := pending_ok h
  rw [decodeFrom_inner missing hlow hhigh] at h
  exact ⟨b, rest, rfl, hlow, hhigh, h⟩

/-- A byte is the one of its number. -/
theorem byte_eq {b : UInt8} {n : Nat} (h : b.toNat = n) : b = UInt8.ofNat n := by
  rw [← h, UInt8.ofNat_toNat]

/-- A continuation byte is the one of its six bits. -/
theorem continuation_eq {b : UInt8} (h : 0x80 ≤ b.toNat) :
    b = UInt8.ofNat (0x80 + (b.toNat - 0x80)) :=
  byte_eq (by omega)

theorem toNat_ofNat {n : Nat} (h : n < 0xD800 ∨ (0xDFFF < n ∧ n < 0x110000)) :
    (Char.ofNat n).toNat = n := by
  rw [Char.ofNat, dif_pos h]
  rfl

theorem encodeChar_two {k m : Nat} (hk : 2 ≤ k) (hk' : k < 32) (hm : m < 64) :
    encodeChar (Char.ofNat (k * 64 + m)) = [UInt8.ofNat (0xC0 + k), UInt8.ofNat (0x80 + m)] := by
  rw [encodeChar, toNat_ofNat (by omega), if_neg (by omega), if_pos (by omega),
    show (k * 64 + m) / 64 = k by omega, show (k * 64 + m) % 64 = m by omega]

/-- Without the overlong forms and the surrogates, which the range of the second byte rules out. -/
theorem encodeChar_three {k m₁ m₂ : Nat} (hk : k < 16) (hm₁ : m₁ < 64) (hm₂ : m₂ < 64)
    (hlow : k = 0 → 32 ≤ m₁) (hhigh : k = 13 → m₁ < 32) :
    encodeChar (Char.ofNat ((k * 64 + m₁) * 64 + m₂)) =
      [UInt8.ofNat (0xE0 + k), UInt8.ofNat (0x80 + m₁), UInt8.ofNat (0x80 + m₂)] := by
  rw [encodeChar, toNat_ofNat (by omega), if_neg (by omega), if_neg (by omega), if_pos (by omega),
    show ((k * 64 + m₁) * 64 + m₂) / 4096 = k by omega,
    show ((k * 64 + m₁) * 64 + m₂) / 64 % 64 = m₁ by omega,
    show ((k * 64 + m₁) * 64 + m₂) % 64 = m₂ by omega]

/-- Without the overlong forms and what is past the last code point. -/
theorem encodeChar_four {k m₁ m₂ m₃ : Nat} (hk : k < 5) (hm₁ : m₁ < 64) (hm₂ : m₂ < 64)
    (hm₃ : m₃ < 64) (hlow : k = 0 → 16 ≤ m₁) (hhigh : k = 4 → m₁ < 16) :
    encodeChar (Char.ofNat (((k * 64 + m₁) * 64 + m₂) * 64 + m₃)) =
      [UInt8.ofNat (0xF0 + k), UInt8.ofNat (0x80 + m₁), UInt8.ofNat (0x80 + m₂),
        UInt8.ofNat (0x80 + m₃)] := by
  rw [encodeChar, toNat_ofNat (by omega), if_neg (by omega), if_neg (by omega), if_neg (by omega),
    show (((k * 64 + m₁) * 64 + m₂) * 64 + m₃) / 262144 = k by omega,
    show (((k * 64 + m₁) * 64 + m₂) * 64 + m₃) / 4096 % 64 = m₁ by omega,
    show (((k * 64 + m₁) * 64 + m₂) * 64 + m₃) / 64 % 64 = m₂ by omega,
    show (((k * 64 + m₁) * 64 + m₂) * 64 + m₃) % 64 = m₃ by omega]

/-- **Reading one character.** Bytes that go on start with the bytes of the character read. -/
theorem decodeFrom_cons_ok {i : Nat} {b : UInt8} {bytes : List UInt8} {cs : List Char}
    (h : decodeFrom i none (b :: bytes) = .ok cs) :
    ∃ c j rest cs', b :: bytes = encodeChar c ++ rest ∧ cs = c :: cs' ∧
      decodeFrom j none rest = .ok cs' := by
  by_cases hascii : b.toNat < 0x80
  · rw [decodeFrom_ascii hascii] at h
    obtain ⟨cs', hrest, rfl⟩ := map_cons_ok h
    refine ⟨Char.ofNat b.toNat, i + 1, bytes, cs', ?_, rfl, hrest⟩
    rw [encodeChar, toNat_ofNat (by omega)]
    simp only [hascii, if_true, UInt8.ofNat_toNat]
    rfl
  cases hlead : lead? b.toNat with
  | none =>
    rw [decodeFrom] at h
    simp only [hascii, if_false, hlead] at h
    cases h
  | some announced =>
    obtain ⟨missing, low, high, code⟩ := announced
    rw [decodeFrom_lead (by omega) hlead] at h
    -- the bytes to come are as many as the first one announces
    obtain ⟨k, hk, hk', hb⟩ | ⟨k, hk, hb⟩ | ⟨k, hk, hb⟩ := lead?_cases hlead
    · rw [hb, lead?_two hk hk'] at hlead
      cases hlead
      obtain ⟨b₁, rest, cs', rfl, hlow, hhigh, rfl, hrest⟩ := last_ok h
      refine ⟨_, _, rest, cs', ?_, rfl, hrest⟩
      rw [encodeChar_two hk hk' (by omega), ← byte_eq hb, ← continuation_eq hlow]
      rfl
    · rw [hb, lead?_three hk] at hlead
      cases hlead
      obtain ⟨b₁, bytes, rfl, hlow, hhigh, h⟩ := inner_ok h
      obtain ⟨b₂, rest, cs', rfl, hlow₂, hhigh₂, rfl, hrest⟩ := last_ok h
      have hlow₁ : 0x80 ≤ b₁.toNat := by split at hlow <;> omega
      have hfirst (hzero : code = 0) : 32 ≤ b₁.toNat - 0x80 := by
        rw [if_pos hzero] at hlow
        omega
      have hsurrogate (hcode : code = 13) : b₁.toNat - 0x80 < 32 := by
        rw [if_pos hcode] at hhigh
        omega
      refine ⟨_, _, rest, cs', ?_, rfl, hrest⟩
      rw [encodeChar_three hk (by split at hhigh <;> omega) (by omega) hfirst hsurrogate,
        ← byte_eq hb, ← continuation_eq hlow₁, ← continuation_eq hlow₂]
      rfl
    · rw [hb, lead?_four hk] at hlead
      cases hlead
      obtain ⟨b₁, bytes, rfl, hlow, hhigh, h⟩ := inner_ok h
      obtain ⟨b₂, bytes, rfl, hlow₂, hhigh₂, h⟩ := inner_ok h
      obtain ⟨b₃, rest, cs', rfl, hlow₃, hhigh₃, rfl, hrest⟩ := last_ok h
      have hlow₁ : 0x80 ≤ b₁.toNat := by split at hlow <;> omega
      have hfirst (hzero : code = 0) : 16 ≤ b₁.toNat - 0x80 := by
        rw [if_pos hzero] at hlow
        omega
      have hpast (hcode : code = 4) : b₁.toNat - 0x80 < 16 := by
        rw [if_pos hcode] at hhigh
        omega
      refine ⟨_, _, rest, cs', ?_, rfl, hrest⟩
      rw [encodeChar_four hk (by split at hhigh <;> omega) (by omega) (by omega) hfirst hpast,
        ← byte_eq hb, ← continuation_eq hlow₁, ← continuation_eq hlow₂, ← continuation_eq hlow₃]
      rfl

/-- What is read as a list of characters is made of their bytes. -/
theorem flatMap_of_decodeFrom {i : Nat} {bytes : List UInt8} {cs : List Char}
    (h : decodeFrom i none bytes = .ok cs) : cs.flatMap encodeChar = bytes := by
  induction cs generalizing i bytes with
  | nil =>
    cases bytes with
    | nil => rfl
    | cons b bytes =>
      obtain ⟨c, j, rest, cs', -, hcs, -⟩ := decodeFrom_cons_ok h
      cases hcs
  | cons c cs ih =>
    cases bytes with
    | nil => cases h
    | cons b bytes =>
      obtain ⟨c', j, rest, cs', hbytes, hcs, hrest⟩ := decodeFrom_cons_ok h
      cases hcs
      rw [List.flatMap_cons, ih hrest, hbytes]

/-- **Writing undoes reading.** No text has two forms as bytes: bytes that are read as a text are
those that it is written as. -/
theorem encode_of_decode {bytes : List UInt8} {s : String} (h : decode bytes = .ok s) :
    encode s = bytes := by
  unfold decode at h
  cases hchars : decodeFrom 0 none bytes with
  | error e =>
    rw [hchars] at h
    cases h
  | ok cs =>
    rw [hchars] at h
    cases h
    rw [encode, String.toList_ofList, flatMap_of_decodeFrom hchars]

/-! ## The bytes of a string -/

/-- The bytes of a character are those of the library, which cuts every group of bits to its
width. -/
theorem encodeChar_eq_utf8EncodeChar (c : Char) : encodeChar c = String.utf8EncodeChar c := by
  have hv := toNat_lt_or c
  have hn : c.val.toNat = c.toNat := rfl
  unfold encodeChar String.utf8EncodeChar
  simp only [hn]
  generalize c.toNat = n at *
  by_cases h1 : n < 0x80
  · rw [if_pos h1, if_pos (by omega)]
  by_cases h2 : n < 0x800
  · rw [if_neg h1, if_pos h2, if_neg (by omega), if_pos (by omega),
      show n / 64 % 32 + 192 = 0xC0 + n / 64 by omega, Nat.add_comm _ 128]
  by_cases h3 : n < 0x10000
  · rw [if_neg h1, if_neg h2, if_pos h3, if_neg (by omega), if_neg (by omega), if_pos (by omega),
      show n / 4096 % 16 + 224 = 0xE0 + n / 4096 by omega, Nat.add_comm (n / 64 % 64) 128,
      Nat.add_comm (n % 64) 128]
  · rw [if_neg h1, if_neg h2, if_neg h3, if_neg (by omega), if_neg (by omega), if_neg (by omega),
      show n / 262144 % 8 + 240 = 0xF0 + n / 262144 by omega, Nat.add_comm (n / 4096 % 64) 128,
      Nat.add_comm (n / 64 % 64) 128, Nat.add_comm (n % 64) 128]

/-- The bytes of a text are the bytes of the string. -/
theorem toByteArray_encode (s : String) : (encode s).toByteArray = s.toByteArray := by
  rw [encode, funext encodeChar_eq_utf8EncodeChar, ← String.utf8Encode_toList]
  rfl

theorem length_encode (s : String) : (encode s).length = s.utf8ByteSize := by
  rw [← List.size_toByteArray, toByteArray_encode, String.size_toByteArray]

end Utf8

end SqlWindow
