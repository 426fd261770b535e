import SqlWindow.Crc32

set_option autoImplicit false

/-! # What a checksum tells apart

One bit of division can be undone: the polynomial has its top bit set, so the top bit of the
remainder behind a shift is the bit that left it. Hence no two remainders come to be the same
over the same bytes, and byte strings that differ in one byte only never have the same checksum.
-/

namespace SqlWindow

namespace Crc32

/-- Without the polynomial, a shift halves the remainder. -/
theorem toNat_shiftRight_one (r : UInt32) : (r >>> 1).toNat = r.toNat / 2 := by
  rw [UInt32.toNat_shiftRight]
  rfl

theorem and_one_eq_one_iff (r : UInt32) : r &&& 1 = 1 ↔ r.toNat % 2 = 1 := by
  rw [← UInt32.toNat_inj, UInt32.toNat_and]
  show r.toNat &&& 1 = 1 ↔ _
  rw [Nat.and_one_is_mod]

/-- The top bit of the polynomial is that of no halved remainder. -/
theorem shiftRight_xor_polynomial_ne (a b : UInt32) : (a >>> 1) ^^^ polynomial ≠ b >>> 1 := by
  intro h
  have hpolynomial : polynomial = (a >>> 1) ^^^ (b >>> 1) := by
    rw [← h, ← UInt32.xor_assoc, UInt32.xor_self, UInt32.zero_xor]
  have hlt : ((a >>> 1) ^^^ (b >>> 1)).toNat < 2147483648 := by
    have ha := a.toNat_lt
    have hb := b.toNat_lt
    rw [UInt32.toNat_xor, toNat_shiftRight_one, toNat_shiftRight_one]
    exact @Nat.xor_lt_two_pow _ _ 31 (by omega) (by omega)
  rw [← hpolynomial] at hlt
  exact absurd hlt (by decide)

/-- A remainder whose halves and last bits agree with another one is that one. -/
theorem eq_of_shiftRight_eq {a b : UInt32} (hhalf : a >>> 1 = b >>> 1)
    (hlow : a &&& 1 = 1 ↔ b &&& 1 = 1) : a = b := by
  rw [and_one_eq_one_iff, and_one_eq_one_iff] at hlow
  rw [← UInt32.toNat_inj, toNat_shiftRight_one, toNat_shiftRight_one] at hhalf
  rw [← UInt32.toNat_inj]
  omega

/-- **One bit of division can be undone.** -/
theorem shift_injective {a b : UInt32} (h : shift a = shift b) : a = b := by
  unfold shift at h
  by_cases ha : a &&& 1 = 1 <;> by_cases hb : b &&& 1 = 1
  · rw [if_pos ha, if_pos hb, UInt32.xor_left_inj] at h
    exact eq_of_shiftRight_eq h ⟨fun _ => hb, fun _ => ha⟩
  · rw [if_pos ha, if_neg hb] at h
    exact absurd h (shiftRight_xor_polynomial_ne a b)
  · rw [if_neg ha, if_pos hb] at h
    exact absurd h.symm (shiftRight_xor_polynomial_ne b a)
  · rw [if_neg ha, if_neg hb] at h
    exact eq_of_shiftRight_eq h ⟨fun h' => absurd h' ha, fun h' => absurd h' hb⟩

/-- Steps that end alike have started from the same remainder and byte, put together. -/
theorem xor_eq_of_step_eq {r r' : UInt32} {b b' : UInt8} (h : step r b = step r' b') :
    r ^^^ b.toUInt32 = r' ^^^ b'.toUInt32 := by
  unfold step at h
  iterate 8 replace h := shift_injective h
  exact h

/-- The same bytes lead from different remainders to different ones. -/
theorem foldl_step_injective {bytes : List UInt8} {r r' : UInt32}
    (h : bytes.foldl step r = bytes.foldl step r') : r = r' := by
  induction bytes generalizing r r' with
  | nil => exact h
  | cons b bytes ih => exact (UInt32.xor_left_inj _).mp (xor_eq_of_step_eq (ih h))

end Crc32

/-- **Every change of one byte shows** in the checksum. -/
theorem crc32_set_ne {bytes : List UInt8} {i : Nat} {b : UInt8} (hi : i < bytes.length)
    (hb : bytes[i] ≠ b) : crc32 (bytes.set i b) ≠ crc32 bytes := by
  obtain ⟨front, back, hbytes, -, hset⟩ := @List.exists_of_set _ i b bytes hi
  intro h
  unfold crc32 at h
  rw [UInt32.xor_left_inj, hset] at h
  conv at h => rhs; rw [hbytes]
  rw [List.foldl_append, List.foldl_append, List.foldl_cons, List.foldl_cons] at h
  -- Up to the byte nothing differs, and behind it nothing that differs becomes alike again.
  have hstep := Crc32.xor_eq_of_step_eq (Crc32.foldl_step_injective h)
  exact hb (UInt8.toUInt32_inj.mp ((UInt32.xor_right_inj _).mp hstep.symm))

end SqlWindow
