import Mathlib.Data.EReal.Basic
import SqlWindow.Double.Arithmetic
import SqlWindow.Proofs.Value.Order

set_option autoImplicit false

/-! # Doubles as numbers

A double that is not NaN stands for an extended real. Comparing doubles is comparing what they
stand for, with NaN on top: units grow with the magnitude, so that an infinity, which counts as
the first power of two past the finite doubles, is past all of them.

Integers up to `2⁵³` in magnitude have no more significant bits than a double keeps, and nothing is
lost when they become doubles. From `2⁵³ + 1` on this fails.
-/

namespace SqlWindow

namespace Double

/-! ## Units of a magnitude -/

theorem unitsOfMagnitude_of_lt {m : ℕ} (h : m < leadingBit) : unitsOfMagnitude m = m :=
  if_pos h

theorem unitsOfMagnitude_of_le {m : ℕ} (h : leadingBit ≤ m) :
    unitsOfMagnitude m = (leadingBit + m % leadingBit) * 2 ^ (m / leadingBit - 1) := by
  rw [unitsOfMagnitude, if_neg (Nat.not_lt.mpr h), Nat.shiftLeft_eq]

/-- A significand of at most 53 bits and the step it counts: the leading bit of the significand
is the one that is not stored, except in the lowest step. -/
theorem unitsOfMagnitude_add {shift q : ℕ} (hq : q < 2 * leadingBit)
    (h : shift = 0 ∨ leadingBit ≤ q) :
    unitsOfMagnitude (shift * leadingBit + q) = q * 2 ^ shift := by
  by_cases hsub : q < leadingBit
  · obtain rfl : shift = 0 := h.resolve_right (Nat.not_le.mpr hsub)
    rw [Nat.zero_mul, Nat.zero_add, unitsOfMagnitude_of_lt hsub, Nat.pow_zero, Nat.mul_one]
  · have hsum : shift * leadingBit + q = (q - leadingBit) + leadingBit * (shift + 1) := by
      rw [Nat.mul_add, Nat.mul_one, Nat.mul_comm]
      omega
    have hpos : 0 < leadingBit := by decide
    have hrest : q - leadingBit < leadingBit := by omega
    have hle : leadingBit ≤ shift * leadingBit + q := by omega
    rw [unitsOfMagnitude_of_le hle, hsum, Nat.add_mul_mod_self_left, Nat.mod_eq_of_lt hrest,
      Nat.add_mul_div_left _ _ hpos, Nat.div_eq_of_lt hrest, Nat.zero_add, Nat.add_sub_cancel,
      Nat.add_sub_cancel' (Nat.not_lt.mp hsub)]

/-- The units from a magnitude to the next one. -/
def gap (m : ℕ) : ℕ := 2 ^ (m / leadingBit - 1)

theorem gap_pos (m : ℕ) : 0 < gap m := Nat.two_pow_pos _

theorem unitsOfMagnitude_succ (m : ℕ) :
    unitsOfMagnitude (m + 1) = unitsOfMagnitude m + gap m := by
  unfold gap
  by_cases hsub : m < leadingBit
  · have hsucc : unitsOfMagnitude (0 * leadingBit + (m + 1)) = (m + 1) * 2 ^ 0 :=
      unitsOfMagnitude_add (by omega) (.inl rfl)
    rw [Nat.zero_mul, Nat.zero_add, Nat.pow_zero, Nat.mul_one] at hsucc
    rw [unitsOfMagnitude_of_lt hsub, hsucc, Nat.div_eq_of_lt hsub, Nat.zero_sub, Nat.pow_zero]
  · -- Within a step the significand grows by one; at its end it starts anew, at twice the step.
    obtain ⟨shift, hshift⟩ : ∃ shift, m / leadingBit = shift + 1 :=
      ⟨m / leadingBit - 1, by unfold leadingBit at *; omega⟩
    have hm : m = shift * leadingBit + (leadingBit + m % leadingBit) := by
      have := Nat.div_add_mod m leadingBit
      rw [hshift, Nat.mul_add, Nat.mul_one, Nat.mul_comm] at this
      omega
    have hrest : m % leadingBit < leadingBit := Nat.mod_lt m (by decide)
    rw [hshift, Nat.add_sub_cancel]
    generalize m % leadingBit = rest at hm hrest
    rw [hm, unitsOfMagnitude_add (by omega) (.inr (by omega)), ← Nat.succ_mul]
    by_cases hend : rest + 1 < leadingBit
    · rw [Nat.add_assoc, Nat.add_assoc, unitsOfMagnitude_add (by omega) (.inr (by omega))]
      rfl
    · have hnext : shift * leadingBit + (leadingBit + rest) + 1
          = (shift + 1) * leadingBit + leadingBit := by
        rw [Nat.add_mul]
        omega
      have hfull : (leadingBit + rest).succ = leadingBit * 2 := by omega
      rw [hnext, unitsOfMagnitude_add (by omega) (.inr le_rfl), hfull, Nat.pow_succ, Nat.mul_assoc,
        Nat.mul_comm 2]

/-- **A larger magnitude has more units.** -/
theorem strictMono_unitsOfMagnitude : StrictMono unitsOfMagnitude := by
  apply strictMono_nat_of_lt_succ
  intro m
  rw [unitsOfMagnitude_succ]
  exact Nat.lt_add_of_pos_right (gap_pos m)

/-- The units of an infinity. -/
def infinityUnits : ℕ := unitsOfMagnitude infinityMagnitude

/-- One and infinity are powers of two, and 64 bits fit well between them. -/
theorem exists_exponents :
    ∃ one infinity, unitsPerOne = 2 ^ one ∧ infinityUnits = 2 ^ infinity ∧ 64 + one < infinity := by
  -- The exponents are named, for powers as large as these must not be computed.
  obtain ⟨one, hone⟩ : ∃ one, one = 1074 := ⟨_, rfl⟩
  obtain ⟨shift, hshift⟩ : ∃ shift, shift = 2046 := ⟨_, rfl⟩
  refine ⟨one, 52 + shift, ?_, ?_, by omega⟩
  · have hunits : unitsPerOne = 1 <<< one := by rw [hone, unitsPerOne]
    rw [hunits, Nat.one_shiftLeft]
  · have hinfinity : infinityMagnitude = shift * leadingBit + leadingBit := by
      rw [hshift]
      rfl
    rw [infinityUnits, hinfinity, unitsOfMagnitude_add (by decide) (.inr le_rfl), Nat.pow_add]
    rfl

/-! ## Sign and magnitude -/

/-- The bits are the sign and the magnitude. -/
theorem eq_of_magnitude_eq {x y : Double} (hnegative : x.isNegative = y.isNegative)
    (hmagnitude : x.magnitude = y.magnitude) : x = y := by
  obtain ⟨bits⟩ := x
  obtain ⟨bits'⟩ := y
  have hbits := bits.toNat_lt
  have hbits' := bits'.toNat_lt
  rw [isNegative, isNegative, decide_eq_decide] at hnegative
  unfold magnitude at hmagnitude
  unfold signBit at hnegative hmagnitude
  refine congrArg Double.mk (UInt64.toNat_inj.mp ?_)
  dsimp only at *
  omega

section
variable {negative : Bool} {m : ℕ}

theorem toNat_bits_ofMagnitude (h : m < signBit) :
    (ofMagnitude negative m).bits.toNat = (if negative then signBit else 0) + m := by
  rw [ofMagnitude, UInt64.toNat_ofNat']
  apply Nat.mod_eq_of_lt
  unfold signBit at *
  split <;> omega

theorem magnitude_ofMagnitude (h : m < signBit) : (ofMagnitude negative m).magnitude = m := by
  rw [magnitude, toNat_bits_ofMagnitude h]
  cases negative
  · simpa using Nat.mod_eq_of_lt h
  · simpa using Nat.mod_eq_of_lt h

theorem isNegative_ofMagnitude (h : m < signBit) :
    (ofMagnitude negative m).isNegative = negative := by
  rw [isNegative, toNat_bits_ofMagnitude h]
  cases negative
  · simpa using h
  · simp

theorem units_ofMagnitude (h : m < signBit) : (ofMagnitude negative m).units =
    if negative then -(unitsOfMagnitude m : ℤ) else unitsOfMagnitude m := by
  rw [units, isNegative_ofMagnitude h, magnitude_ofMagnitude h]

end

/-! ## Exact conversions -/

/-- The bits of a number that are kept: no more than 53, and all 53 where any are left out. -/
theorem leading_bits (n : ℕ) : n / 2 ^ (n.log2 - 52) < 2 * leadingBit ∧
    (n.log2 - 52 = 0 ∨ leadingBit ≤ n / 2 ^ (n.log2 - 52)) := by
  have hpos : 0 < 2 ^ (n.log2 - 52) := Nat.two_pow_pos _
  constructor
  · rw [Nat.div_lt_iff_lt_mul hpos]
    calc n < 2 ^ (n.log2 + 1) := Nat.lt_log2_self
      _ ≤ 2 ^ (53 + (n.log2 - 52)) := Nat.pow_le_pow_right (by decide) (by omega)
      _ = 2 * leadingBit * 2 ^ (n.log2 - 52) := Nat.pow_add 2 53 _
  · by_cases hshift : n.log2 - 52 = 0
    · exact .inl hshift
    · right
      have hne : n ≠ 0 := by
        rintro rfl
        exact hshift (by simp)
      rw [Nat.le_div_iff_mul_le hpos]
      calc leadingBit * 2 ^ (n.log2 - 52) = 2 ^ (52 + (n.log2 - 52)) := (Nat.pow_add 2 52 _).symm
        _ ≤ 2 ^ n.log2 := Nat.pow_le_pow_right (by decide) (by omega)
        _ ≤ n := Nat.log2_self_le hne

/-- A number of units that has no more than 53 significant bits is not rounded. -/
theorem unitsOfMagnitude_roundToMagnitude {n : ℕ} (hdvd : 2 ^ (n.log2 - 52) ∣ n)
    (hn : n < infinityUnits) :
    unitsOfMagnitude (roundToMagnitude n 1) = n ∧ roundToMagnitude n 1 < infinityMagnitude := by
  obtain ⟨hlt, hlead⟩ := leading_bits n
  have hmod : n % 2 ^ (n.log2 - 52) = 0 := Nat.mod_eq_zero_of_dvd hdvd
  have hunits : unitsOfMagnitude ((n.log2 - 52) * leadingBit + n / 2 ^ (n.log2 - 52)) = n := by
    rw [unitsOfMagnitude_add hlt hlead, Nat.div_mul_cancel hdvd]
  have hfinite : (n.log2 - 52) * leadingBit + n / 2 ^ (n.log2 - 52) < infinityMagnitude := by
    rw [← strictMono_unitsOfMagnitude.lt_iff_lt, hunits]
    exact hn
  have hround : roundToMagnitude n 1 =
      (n.log2 - 52) * leadingBit + n / 2 ^ (n.log2 - 52) := by
    simp only [roundToMagnitude, Nat.div_one, Nat.one_mul, Nat.shiftLeft_eq, hmod]
    rw [if_neg (by omega)]
    exact Nat.min_eq_left hfinite.le
  rw [hround]
  exact ⟨hunits, hfinite⟩

/-- A whole number has no more than 53 significant bits up to `2⁵³`, where it has one. -/
theorem two_pow_dvd_mul_two_pow {k : ℕ} (h : k ≤ 2 ^ 53) (e : ℕ) :
    2 ^ ((k * 2 ^ e).log2 - 52) ∣ k * 2 ^ e := by
  rcases Nat.eq_zero_or_pos k with rfl | hpos
  · simp
  rcases Nat.lt_or_eq_of_le h with hlt | rfl
  · have hlog : (k * 2 ^ e).log2 < 53 + e := by
      rw [Nat.log2_lt (Nat.mul_pos hpos (Nat.two_pow_pos e)).ne', Nat.pow_add]
      exact Nat.mul_lt_mul_of_pos_right hlt (Nat.two_pow_pos e)
    exact Nat.dvd_mul_left_of_dvd (Nat.pow_dvd_pow 2 (by omega)) k
  · rw [← Nat.pow_add, Nat.log2_two_pow]
    exact Nat.pow_dvd_pow 2 (by omega)

/-- Whole numbers up to `2⁵³` are among the finite doubles. -/
theorem isExact_units {k : ℕ} (h : k ≤ 2 ^ 53) :
    2 ^ ((k * unitsPerOne).log2 - 52) ∣ k * unitsPerOne ∧ k * unitsPerOne < infinityUnits := by
  obtain ⟨one, infinity, hone, hinfinity, hlt⟩ := exists_exponents
  rw [hone, hinfinity]
  refine ⟨two_pow_dvd_mul_two_pow h one, ?_⟩
  calc k * 2 ^ one ≤ 2 ^ 53 * 2 ^ one := Nat.mul_le_mul_right _ h
    _ = 2 ^ (53 + one) := (Nat.pow_add 2 53 one).symm
    _ < 2 ^ infinity := Nat.pow_lt_pow_right (by decide) (by omega)

/-- **Integers up to `2⁵³` become doubles exactly.** -/
theorem units_ofInt {i : ℤ} (hi : |i| ≤ 2 ^ 53) :
    (ofInt i).units = i * unitsPerOne ∧ (ofInt i).magnitude < infinityMagnitude := by
  have hbound : i.natAbs ≤ 2 ^ 53 := by
    rw [Int.abs_eq_natAbs] at hi
    omega
  have hnat : (i * unitsPerOne).natAbs = i.natAbs * unitsPerOne := by
    rw [Int.natAbs_mul, Int.natAbs_natCast]
  obtain ⟨hdvd, hfinite⟩ := isExact_units hbound
  rw [← hnat] at hdvd hfinite
  obtain ⟨hunits, hlt⟩ := unitsOfMagnitude_roundToMagnitude hdvd hfinite
  have hsign : infinityMagnitude < signBit := by decide
  unfold ofInt ofUnits
  split
  · rename_i hzero
    rw [zero, units_ofMagnitude (by decide), magnitude_ofMagnitude (by decide), hzero]
    exact ⟨rfl, by decide⟩
  · rw [units_ofMagnitude (by omega), magnitude_ofMagnitude (by omega), hunits]
    refine ⟨?_, hlt⟩
    by_cases hneg : i * unitsPerOne < 0
    · rw [if_pos (by simpa using hneg)]
      omega
    · rw [if_neg (by simpa using hneg)]
      omega

/-! ## Numbers -/

/-- What a double stands for, NaN left aside. -/
noncomputable def extended (x : Double) : EReal :=
  if x.isInfinite then
    if x.isNegative then ⊥ else ⊤
  else ((x.units / unitsPerOne : ℝ) : EReal)

/-- Where a double stands among the numbers: NaN above all of them. -/
noncomputable def number (x : Double) : WithTop EReal := if x.isNaN then ⊤ else x.extended

variable {x y : Double}

/-- A double that is not NaN is negative infinity, finite, or positive infinity. -/
theorem extended_cases (h : x.isNaN = false) :
    (x.units = -infinityUnits ∧ x.extended = ⊥) ∨
    (-infinityUnits < x.units ∧ x.units < infinityUnits ∧
      x.extended = ((x.units / unitsPerOne : ℝ) : EReal)) ∨
    (x.units = infinityUnits ∧ x.extended = ⊤) := by
  have hle : x.magnitude ≤ infinityMagnitude := by simpa [isNaN] using h
  unfold extended
  rcases Nat.lt_or_eq_of_le hle with hlt | heq
  · have hmono : unitsOfMagnitude x.magnitude < infinityUnits := strictMono_unitsOfMagnitude hlt
    have hfinite : x.isInfinite = false := by simpa [isInfinite] using hlt.ne
    rw [hfinite]
    refine .inr (.inl ⟨?_, ?_, rfl⟩)
    · unfold units
      split <;> omega
    · unfold units
      split <;> omega
  · have hinfinite : x.isInfinite = true := by simpa [isInfinite] using heq
    rw [hinfinite, units, heq]
    cases x.isNegative
    · exact .inr (.inr ⟨rfl, rfl⟩)
    · exact .inl ⟨rfl, rfl⟩

theorem units_lt_iff_extended_lt (hx : x.isNaN = false) (hy : y.isNaN = false) :
    x.units < y.units ↔ x.extended < y.extended := by
  have hpos : (0 : ℤ) < infinityUnits := by
    obtain ⟨-, infinity, -, hinfinity, -⟩ := exists_exponents
    rw [hinfinity]
    exact_mod_cast Nat.two_pow_pos infinity
  have hscale : (0 : ℝ) < unitsPerOne := by exact_mod_cast Value.unitsPerOne_pos
  rcases extended_cases hx with ⟨hxu, hxe⟩ | ⟨hxl, hxr, hxe⟩ | ⟨hxu, hxe⟩ <;>
    rcases extended_cases hy with ⟨hyu, hye⟩ | ⟨hyl, hyr, hye⟩ | ⟨hyu, hye⟩ <;>
    rw [hxe, hye]
  case inr.inl.inr.inl =>
    rw [EReal.coe_lt_coe_iff, div_lt_div_iff_of_pos_right hscale, Int.cast_lt]
  all_goals
    simp
    omega

/-- **Comparing doubles is comparing numbers.** -/
theorem order_eq_lt_iff (x y : Double) : x.order y = .lt ↔ x.number < y.number := by
  unfold order number
  cases hx : x.isNaN <;> cases hy : y.isNaN
  · rw [Std.compare_eq_lt, units_lt_iff_extended_lt hx hy]
    simp
  all_goals simp

/-- **An integer up to `2⁵³` stands where its double stands.** -/
theorem number_ofInt64 {i : Int64} (hi : |i.toInt| ≤ 2 ^ 53) :
    (ofInt64 i).number = ((i.toInt : ℝ) : EReal) := by
  obtain ⟨hunits, hlt⟩ := units_ofInt hi
  have hnumber : (ofInt64 i).isNaN = false := decide_eq_false hlt.not_gt
  have hfinite : (ofInt64 i).isInfinite = false := decide_eq_false hlt.ne
  have hscale : (unitsPerOne : ℝ) ≠ 0 := by exact_mod_cast Value.unitsPerOne_pos.ne'
  rw [number, hnumber, extended, hfinite, ofInt64, hunits]
  simp [hscale]

end Double

end SqlWindow
