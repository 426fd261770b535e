import SqlWindow.Proofs.Double.Rounding

set_option autoImplicit false

/-! # Means of integers

The quotient of two integers as doubles is rounded three times: each integer on its way to a
double, and the quotient. Every double has a place in the line of all doubles (`ordinal`), and of
the three only the first two can bring the quotient away from the double that is nearest to the
exact one: by one place each, if the integer is not a double itself (`loss`). The nearest double to
a mean is not outside of what the mean is taken of.
-/

namespace SqlWindow

namespace Double

/-! ## The line of doubles -/

/-- A function of magnitudes, continued to negative numbers with the opposite sign. -/
def oddExtension (f : ℕ → ℕ) (k : ℤ) : ℤ := k.sign * f k.natAbs

section
variable {f : ℕ → ℕ}

theorem oddExtension_neg (f : ℕ → ℕ) (k : ℤ) : oddExtension f (-k) = -oddExtension f k := by
  rw [oddExtension, Int.sign_neg, Int.natAbs_neg, neg_mul, oddExtension]

theorem oddExtension_natCast (hf : f 0 = 0) (n : ℕ) : oddExtension f n = f n := by
  rcases Nat.eq_zero_or_pos n with rfl | hn
  · simp [oddExtension, hf]
  · rw [oddExtension, Int.sign_eq_one_of_pos (by omega), one_mul, Int.natAbs_natCast]

theorem oddExtension_sign_mul (hf : f 0 = 0) (k : ℤ) (n : ℕ) :
    oddExtension f (k.sign * n) = k.sign * f n := by
  rcases Int.lt_trichotomy k 0 with hk | rfl | hk
  · rw [Int.sign_eq_neg_one_of_neg hk, neg_one_mul, neg_one_mul, oddExtension_neg,
      oddExtension_natCast hf]
  · simp [oddExtension]
  · rw [Int.sign_eq_one_of_pos hk, one_mul, one_mul, oddExtension_natCast hf]

theorem oddExtension_lt (hf : f 0 = 0) (hmono : StrictMono f) {j k : ℤ} (hjk : j < k) :
    oddExtension f j < oddExtension f k := by
  obtain ⟨m, rfl | rfl⟩ := j.eq_nat_or_neg <;> obtain ⟨n, rfl | rfl⟩ := k.eq_nat_or_neg <;>
    simp only [oddExtension_neg, oddExtension_natCast hf]
  · exact_mod_cast hmono (by exact_mod_cast hjk)
  · omega
  · -- one of the two is not zero, and so is its value
    have hle (k : ℕ) : k ≤ f k := hmono.le_apply
    have := hle m
    have := hle n
    omega
  · have hlt : n < m := by omega
    have := hmono hlt
    omega

end

variable {x y : Double} {i lo hi : ℤ} {n : ℕ}

/-- The place of a double in the line of doubles: zero is at 0, and the next larger double is one
further on. -/
def ordinal (x : Double) : ℤ := if x.isNegative then -x.magnitude else x.magnitude

theorem units_eq_oddExtension (x : Double) :
    x.units = oddExtension unitsOfMagnitude x.ordinal := by
  have hzero : unitsOfMagnitude 0 = 0 := rfl
  unfold units ordinal
  cases x.isNegative with
  | true =>
    show -(unitsOfMagnitude x.magnitude : ℤ) = oddExtension unitsOfMagnitude (-x.magnitude)
    rw [oddExtension_neg, oddExtension_natCast hzero]
  | false =>
    show (unitsOfMagnitude x.magnitude : ℤ) = oddExtension unitsOfMagnitude x.magnitude
    rw [oddExtension_natCast hzero]

/-- **The order of doubles is that of their places.** -/
theorem order_eq_compare_ordinal (hx : x.isNaN = false) (hy : y.isNaN = false) :
    x.order y = compare x.ordinal y.ordinal := by
  unfold order
  rw [hx, hy]
  show compare x.units y.units = _
  rw [units_eq_oddExtension x, units_eq_oddExtension y]
  have hmono {j k : ℤ} :
      j < k → oddExtension unitsOfMagnitude j < oddExtension unitsOfMagnitude k :=
    oddExtension_lt rfl strictMono_unitsOfMagnitude
  rcases Int.lt_trichotomy x.ordinal y.ordinal with h | h | h
  · rw [Std.compare_eq_lt.mpr h, Std.compare_eq_lt.mpr (hmono h)]
  · rw [h]
    simp
  · rw [Std.compare_eq_gt.mpr h, Std.compare_eq_gt.mpr (hmono h)]

theorem ordinal_ofMagnitude {negative : Bool} {m : ℕ} (h : m < signBit) :
    (ofMagnitude negative m).ordinal = if negative then -(m : ℤ) else m := by
  rw [ordinal, isNegative_ofMagnitude h, magnitude_ofMagnitude h]

/-! ## Rounded fractions -/

/-- The place of the double that is nearest to `num / den` units. -/
def roundToOrdinal (num : ℤ) (den : ℕ) : ℤ := oddExtension (roundToMagnitude · den) num

theorem roundToMagnitude_zero {den : ℕ} (hden : 0 < den) : roundToMagnitude 0 den = 0 := by
  apply Nat.le_zero.mp
  rw [roundToMagnitude_le_iff hden (by decide)]
  exact .inl (Nat.mul_pos (by decide) hden)

theorem roundToMagnitude_lt_signBit (num den : ℕ) : roundToMagnitude num den < signBit :=
  (roundToMagnitude_le_infinityMagnitude num den).trans_lt (by decide)

theorem roundToOrdinal_neg (num : ℤ) (den : ℕ) :
    roundToOrdinal (-num) den = -roundToOrdinal num den :=
  oddExtension_neg _ num

theorem roundToOrdinal_natCast {den : ℕ} (hden : 0 < den) (num : ℕ) :
    roundToOrdinal num den = roundToMagnitude num den :=
  @oddExtension_natCast (roundToMagnitude · den) (roundToMagnitude_zero hden) num

theorem roundToOrdinal_signed {den : ℕ} (hden : 0 < den) (negative : Bool) (num : ℕ) :
    roundToOrdinal (if negative then -(num : ℤ) else num) den =
      if negative then -(roundToMagnitude num den : ℤ) else roundToMagnitude num den := by
  cases negative with
  | true =>
    show roundToOrdinal (-(num : ℤ)) den = -(roundToMagnitude num den : ℤ)
    rw [roundToOrdinal_neg, roundToOrdinal_natCast hden]
  | false => exact roundToOrdinal_natCast hden num

theorem roundToOrdinal_mono {a c : ℤ} {b d : ℕ} (hb : 0 < b) (hd : 0 < d) (h : a * d ≤ c * b) :
    roundToOrdinal a b ≤ roundToOrdinal c d := by
  obtain ⟨m, rfl | rfl⟩ := a.eq_nat_or_neg <;> obtain ⟨n, rfl | rfl⟩ := c.eq_nat_or_neg <;>
    simp only [roundToOrdinal_neg, roundToOrdinal_natCast hb, roundToOrdinal_natCast hd]
  · exact_mod_cast roundToMagnitude_mono hb hd (by exact_mod_cast h)
  · -- a number that is not negative is below one that is not positive: both are zero
    have hzero : m * d = 0 ∧ n * b = 0 := by
      have hm : (0 : ℤ) ≤ m * d := by positivity
      have hn : (0 : ℤ) ≤ n * b := by positivity
      rw [neg_mul] at h
      constructor
      · exact_mod_cast (by omega : (m : ℤ) * d = 0)
      · exact_mod_cast (by omega : (n : ℤ) * b = 0)
    obtain rfl : m = 0 := by
      rcases Nat.mul_eq_zero.mp hzero.1 with h | h
      · exact h
      · omega
    obtain rfl : n = 0 := by
      rcases Nat.mul_eq_zero.mp hzero.2 with h | h
      · exact h
      · omega
    rw [roundToMagnitude_zero hb, roundToMagnitude_zero hd]
    rfl
  · omega
  · have hle : n * b ≤ m * d := by
      rw [neg_mul, neg_mul] at h
      exact_mod_cast (by omega : (n : ℤ) * b ≤ m * d)
    have := roundToMagnitude_mono hd hb hle
    omega

theorem roundToOrdinal_mul {a : ℤ} {b c : ℕ} (hb : 0 < b) (hc : 0 < c) :
    roundToOrdinal (a * c) (b * c) = roundToOrdinal a b := by
  have heq : a * c * b = a * ((b * c : ℕ) : ℤ) := by
    push_cast
    ring
  exact le_antisymm (roundToOrdinal_mono (Nat.mul_pos hb hc) hb heq.le)
    (roundToOrdinal_mono hb (Nat.mul_pos hb hc) heq.ge)

/-! ## Integers as doubles -/

/-- The double is neither infinite nor NaN. -/
def IsFinite (x : Double) : Prop := x.magnitude < infinityMagnitude

instance (x : Double) : Decidable x.IsFinite := inferInstanceAs (Decidable (_ < _))

theorem IsFinite.isNaN_eq (h : x.IsFinite) : x.isNaN = false := decide_eq_false h.not_gt

theorem IsFinite.isInfinite_eq (h : x.IsFinite) : x.isInfinite = false := decide_eq_false h.ne

theorem natAbs_units (x : Double) : x.units.natAbs = unitsOfMagnitude x.magnitude := by
  unfold units
  split <;> omega

/-- A double that is not zero is what its units are rounded to. -/
theorem ofUnits_units (hx : x.IsFinite) (hne : x.units ≠ 0) (negativeZero : Bool) :
    ofUnits negativeZero x.units = x := by
  have hround : roundToMagnitude x.units.natAbs 1 = x.magnitude := by
    rw [natAbs_units, roundToMagnitude_unitsOfMagnitude hx]
  have hbound : x.magnitude < signBit := hx.trans (by decide)
  have hsign : decide (x.units < 0) = x.isNegative := by
    unfold units at hne ⊢
    cases hnegative : x.isNegative with
    | true =>
      rw [hnegative, if_pos rfl] at hne
      rw [if_pos rfl]
      exact decide_eq_true (by omega)
    | false =>
      rw [if_neg nofun]
      exact decide_eq_false (by omega)
  rw [ofUnits, if_neg hne, hround, hsign]
  exact eq_of_magnitude_eq (isNegative_ofMagnitude hbound) (magnitude_ofMagnitude hbound)

theorem isNaN_ofMagnitude_round (negative : Bool) (num den : ℕ) :
    (ofMagnitude negative (roundToMagnitude num den)).isNaN = false := by
  unfold isNaN
  rw [magnitude_ofMagnitude (roundToMagnitude_lt_signBit num den)]
  exact decide_eq_false (Nat.not_lt.mpr (roundToMagnitude_le_infinityMagnitude num den))

theorem ordinal_ofUnits (negativeZero : Bool) (u : ℤ) :
    (ofUnits negativeZero u).ordinal = roundToOrdinal u 1 := by
  have hbound := roundToMagnitude_lt_signBit u.natAbs 1
  unfold ofUnits
  rcases Int.lt_trichotomy u 0 with hu | rfl | hu
  · rw [if_neg hu.ne, ordinal_ofMagnitude hbound, if_pos (by simpa using hu), roundToOrdinal,
      oddExtension, Int.sign_eq_neg_one_of_neg hu, neg_one_mul]
  · rw [if_pos rfl, zero, ordinal_ofMagnitude (by decide)]
    cases negativeZero <;> rfl
  · rw [if_neg hu.ne', ordinal_ofMagnitude hbound, if_neg (by simpa using hu.le), roundToOrdinal,
      oddExtension, Int.sign_eq_one_of_pos hu, one_mul]

theorem ordinal_ofInt (i : ℤ) : (ofInt i).ordinal = roundToOrdinal (i * unitsPerOne) 1 :=
  ordinal_ofUnits false _

theorem magnitude_ofInt (i : ℤ) :
    (ofInt i).magnitude = roundToMagnitude (i.natAbs * unitsPerOne) 1 := by
  have hnat : (i * unitsPerOne).natAbs = i.natAbs * unitsPerOne := by
    rw [Int.natAbs_mul, Int.natAbs_natCast]
  rw [← hnat, ofInt, ofUnits]
  split
  · rename_i hzero
    rw [hzero, zero, magnitude_ofMagnitude (by decide)]
    exact (roundToMagnitude_zero Nat.one_pos).symm
  · exact magnitude_ofMagnitude (roundToMagnitude_lt_signBit _ 1)

/-- **Integers of 64 bits become finite doubles.** -/
theorem isFinite_ofInt (hi : i.natAbs ≤ 2 ^ 63) : (ofInt i).IsFinite := by
  obtain ⟨one, infinity, hone, hinfinity, hlt⟩ := exists_exponents
  have hlast : infinityMagnitude - 1 + 1 = infinityMagnitude := rfl
  have hle : roundToMagnitude (i.natAbs * unitsPerOne) 1 ≤ infinityMagnitude - 1 := by
    rw [roundToMagnitude_le_iff Nat.one_pos (by decide), twiceMidpoint, hlast]
    refine .inl ?_
    have hsmall : 2 * (i.natAbs * unitsPerOne) < infinityUnits := by
      rw [hone, hinfinity]
      calc 2 * (i.natAbs * 2 ^ one) ≤ 2 * (2 ^ 63 * 2 ^ one) :=
            Nat.mul_le_mul_left 2 (Nat.mul_le_mul_right _ hi)
        _ = 2 ^ (64 + one) := by rw [Nat.pow_add]; ring
        _ < 2 ^ infinity := Nat.pow_lt_pow_right (by decide) hlt
    have hunits : infinityUnits = unitsOfMagnitude infinityMagnitude := rfl
    omega
  rw [IsFinite, magnitude_ofInt]
  omega

theorem natAbs_toInt_le (i : Int64) : i.toInt.natAbs ≤ 2 ^ 63 := by
  have hle := i.le_toInt
  have hlt := i.toInt_lt
  omega

theorem isFinite_ofInt64 (i : Int64) : (ofInt64 i).IsFinite := isFinite_ofInt (natAbs_toInt_le i)

/-- What an integer loses on its way to a double: 1 if it is rounded, 0 if it is a double itself. -/
def loss (i : ℤ) : ℕ := if (ofInt i).units = i * unitsPerOne then 0 else 1

theorem loss_eq_zero (hi : |i| ≤ 2 ^ 53) : loss i = 0 := if_pos (units_ofInt hi).1

theorem loss_le_one (i : ℤ) : loss i ≤ 1 := by
  unfold loss
  split <;> decide

/-- The units of an integer as a double are those of the integer, off by what it loses. -/
theorem exists_units_ofInt (hfinite : (ofInt i).IsFinite) :
    ∃ m : ℕ, (ofInt i).units = i.sign * m ∧ Near (loss i) m (i.natAbs * unitsPerOne) := by
  have hsign : (i * unitsPerOne).sign = i.sign := by
    rw [Int.sign_mul, Int.sign_eq_one_of_pos Value.unitsPerOne_pos, mul_one]
  have hnat : (i * unitsPerOne).natAbs = i.natAbs * unitsPerOne := by
    rw [Int.natAbs_mul, Int.natAbs_natCast]
  have hordinal : (ofInt i).ordinal = i.sign * roundToMagnitude (i.natAbs * unitsPerOne) 1 := by
    rw [ordinal_ofInt, roundToOrdinal, oddExtension, hsign, hnat]
  have hunits : (ofInt i).units =
      i.sign * unitsOfMagnitude (roundToMagnitude (i.natAbs * unitsPerOne) 1) := by
    rw [units_eq_oddExtension, hordinal, oddExtension_sign_mul rfl]
  rw [IsFinite, magnitude_ofInt] at hfinite
  refine ⟨_, hunits, ?_⟩
  by_cases hexact : (ofInt i).units = i * unitsPerOne
  · -- nothing is lost, so this is the number of units itself
    rcases eq_or_ne i 0 with rfl | hi
    · rw [Int.natAbs_zero, Nat.zero_mul, roundToMagnitude_zero Nat.one_pos]
      exact near_self _ 0
    · have habs := congrArg Int.natAbs (hunits.symm.trans hexact)
      rw [Int.natAbs_mul, Int.natAbs_sign_of_ne_zero hi, one_mul, Int.natAbs_natCast, hnat] at habs
      rw [habs]
      exact near_self _ _
  · rw [loss, if_neg hexact]
    exact near_unitsOfMagnitude hfinite

theorem units_ofInt_ne_zero (hi : i ≠ 0) (hfinite : (ofInt i).IsFinite) :
    (ofInt i).units ≠ 0 := by
  obtain ⟨m, hm, -, hnear⟩ := exists_units_ofInt hfinite
  have hone : 0 < unitsPerOne := by exact_mod_cast Value.unitsPerOne_pos
  have hpos : 0 < i.natAbs * unitsPerOne := Nat.mul_pos (Int.natAbs_pos.mpr hi) hone
  rw [hm]
  refine mul_ne_zero (fun hsign => hi (Int.sign_eq_zero_iff_zero.mp hsign)) ?_
  rw [Nat.cast_ne_zero]
  rintro rfl
  omega

theorem units_ofInt_pos (hn : 0 < n) (hfinite : (ofInt n).IsFinite) : 0 < (ofInt n).units := by
  have hne := units_ofInt_ne_zero (i := n) (by omega) hfinite
  obtain ⟨m, hm, -⟩ := exists_units_ofInt hfinite
  rw [Int.sign_eq_one_of_pos (by omega), one_mul] at hm
  omega

/-- Adding zero changes nothing. -/
theorem add_zero_ofInt (hfinite : (ofInt i).IsFinite) :
    (ofInt i).add (zero false) = ofInt i := by
  have hadd : (ofInt i).add (zero false) = ofUnits false ((ofInt i).units + 0) := by
    unfold add
    rw [hfinite.isNaN_eq, hfinite.isInfinite_eq]
    cases (ofInt i).isNegative <;> rfl
  rw [hadd, add_zero]
  rcases eq_or_ne i 0 with rfl | hi
  · rfl
  · exact ofUnits_units hfinite (units_ofInt_ne_zero hi hfinite) false

/-! ## Quotients -/

theorem ordinal_div (hx : x.IsFinite) (hy : y.IsFinite) (hpos : 0 < y.units) :
    (x.div y).ordinal = roundToOrdinal (x.units * unitsPerOne) y.units.natAbs ∧
      (x.div y).isNaN = false := by
  have hsign : y.isNegative = false := by
    by_contra hne
    rw [Bool.not_eq_false] at hne
    rw [units, if_pos hne] at hpos
    omega
  have hdiv : x.div y = ofMagnitude x.isNegative
      (roundToMagnitude (x.units.natAbs * unitsPerOne) y.units.natAbs) := by
    unfold div
    rw [hx.isNaN_eq, hy.isNaN_eq, hx.isInfinite_eq, hy.isInfinite_eq, hsign]
    simp [hpos.ne']
  have hunits : x.units * unitsPerOne = if x.isNegative then
      -((x.units.natAbs * unitsPerOne : ℕ) : ℤ) else (x.units.natAbs * unitsPerOne : ℕ) := by
    rw [Nat.cast_mul, natAbs_units, units]
    generalize (unitsPerOne : ℤ) = one
    split
    · exact neg_mul _ _
    · rfl
  refine ⟨?_, hdiv ▸ isNaN_ofMagnitude_round _ _ _⟩
  have hden : 0 < y.units.natAbs := by omega
  rw [hdiv, ordinal_ofMagnitude (roundToMagnitude_lt_signBit _ _), hunits,
    roundToOrdinal_signed hden]

theorem roundToOrdinal_sign_mul {den : ℕ} (hden : 0 < den) (k : ℤ) (num : ℕ) :
    roundToOrdinal (k.sign * num) den = k.sign * roundToMagnitude num den :=
  @oddExtension_sign_mul (roundToMagnitude · den) (roundToMagnitude_zero hden) k num

/-- **A quotient of integers** is off from the double that is nearest to the exact one by what the
two integers lose on their way to doubles. -/
theorem abs_ordinal_div_sub_le (hn : 0 < n) (hi : (ofInt i).IsFinite) (hn' : (ofInt n).IsFinite) :
    |((ofInt i).div (ofInt n)).ordinal - roundToOrdinal (i * unitsPerOne) n| ≤
      loss i + loss n := by
  have hone : 0 < unitsPerOne := by exact_mod_cast Value.unitsPerOne_pos
  obtain ⟨m, hm, hmnear⟩ := exists_units_ofInt hi
  obtain ⟨d, hd, hdnear⟩ := exists_units_ofInt hn'
  rw [Int.sign_eq_one_of_pos (by omega), one_mul] at hd
  rw [Int.natAbs_natCast] at hdnear
  have hden : 0 < n * unitsPerOne := Nat.mul_pos hn hone
  have hpos : 0 < (ofInt n).units := units_ofInt_pos hn hn'
  have hdpos : 0 < d := by omega
  -- both are written as one sign and a rounded fraction of magnitudes
  have hquotient : ((ofInt i).div (ofInt n)).ordinal =
      i.sign * roundToMagnitude (m * unitsPerOne) d := by
    rw [(ordinal_div hi hn' hpos).1, hm, hd, Int.natAbs_natCast, mul_assoc, ← Nat.cast_mul,
      roundToOrdinal_sign_mul hdpos]
  have hexact : roundToOrdinal (i * unitsPerOne) n =
      i.sign * roundToMagnitude (i.natAbs * unitsPerOne * unitsPerOne) (n * unitsPerOne) := by
    rw [← roundToOrdinal_mul hn hone, ← roundToOrdinal_sign_mul hden]
    push_cast
    rw [← mul_assoc, ← mul_assoc, Int.sign_mul_abs]
  have hnumerator : |(roundToMagnitude (m * unitsPerOne) d : ℤ) -
      roundToMagnitude (i.natAbs * unitsPerOne * unitsPerOne) d| ≤ loss i :=
    hmnear.abs_round_sub_le (loss_le_one i) hdpos
  have hdenominator : |(roundToMagnitude (i.natAbs * unitsPerOne * unitsPerOne) d : ℤ) -
      roundToMagnitude (i.natAbs * unitsPerOne * unitsPerOne) (n * unitsPerOne)| ≤ loss n :=
    hdnear.abs_round_sub_le_of_den (loss_le_one n) hdpos hden
  have hsign : |i.sign| ≤ 1 := by
    rcases Int.sign_trichotomy i with h | h | h <;> rw [h] <;> decide
  rw [hquotient, hexact, ← mul_sub, abs_mul]
  calc |i.sign| * |(roundToMagnitude (m * unitsPerOne) d : ℤ) -
          roundToMagnitude (i.natAbs * unitsPerOne * unitsPerOne) (n * unitsPerOne)|
      ≤ |(roundToMagnitude (m * unitsPerOne) d : ℤ) -
          roundToMagnitude (i.natAbs * unitsPerOne * unitsPerOne) (n * unitsPerOne)| :=
        mul_le_of_le_one_left (abs_nonneg _) hsign
    _ ≤ _ := abs_sub_le _ _ _
    _ ≤ loss i + loss n := add_le_add hnumerator hdenominator

/-- A quotient by what is too large for a finite double is zero. -/
theorem ordinal_div_of_isInfinite (hx : x.IsFinite) (hy : y.isInfinite = true) :
    (x.div y).ordinal = 0 ∧ (x.div y).isNaN = false := by
  have hnumber : y.isNaN = false := by
    rw [isInfinite, decide_eq_true_eq] at hy
    exact decide_eq_false (by omega)
  have hdiv : x.div y = zero (x.isNegative != y.isNegative) := by
    unfold div
    rw [hx.isNaN_eq, hnumber, hx.isInfinite_eq, hy]
    simp
  rw [hdiv]
  cases x.isNegative != y.isNegative <;> exact ⟨rfl, rfl⟩

theorem ordinal_ofInt_mono (h : lo ≤ hi) : (ofInt lo).ordinal ≤ (ofInt hi).ordinal := by
  rw [ordinal_ofInt, ordinal_ofInt]
  refine roundToOrdinal_mono Nat.one_pos Nat.one_pos ?_
  have hone := Value.unitsPerOne_pos
  push_cast
  rw [mul_one, mul_one]
  exact mul_le_mul_of_nonneg_right h hone.le

/-- The double that is nearest to a mean is not outside of what the mean is taken of. -/
theorem roundToOrdinal_mean (hn : 0 < n) (hlo : lo * n ≤ i) (hhi : i ≤ hi * n) :
    (ofInt lo).ordinal ≤ roundToOrdinal (i * unitsPerOne) n ∧
      roundToOrdinal (i * unitsPerOne) n ≤ (ofInt hi).ordinal := by
  have hone := Value.unitsPerOne_pos
  rw [ordinal_ofInt, ordinal_ofInt]
  constructor
  · refine roundToOrdinal_mono Nat.one_pos hn ?_
    calc lo * unitsPerOne * n = lo * n * unitsPerOne := mul_right_comm _ _ _
      _ ≤ i * unitsPerOne := mul_le_mul_of_nonneg_right hlo hone.le
      _ = i * unitsPerOne * (1 : ℕ) := by rw [Nat.cast_one, mul_one]
  · refine roundToOrdinal_mono hn Nat.one_pos ?_
    calc i * unitsPerOne * (1 : ℕ) = i * unitsPerOne := by rw [Nat.cast_one, mul_one]
      _ ≤ hi * n * unitsPerOne := mul_le_mul_of_nonneg_right hhi hone.le
      _ = hi * unitsPerOne * n := mul_right_comm _ _ _

/-- A count so large that it is no finite double makes a mean zero, and what the mean is taken of
surrounds zero. -/
theorem ordinal_mean_of_not_isFinite (hbound : i.natAbs ≤ 2 ^ 63) (hn : ¬(ofInt n).IsFinite)
    (hlo : lo * n ≤ i) (hhi : i ≤ hi * n) :
    ((ofInt i).div (ofInt n)).isNaN = false ∧ ((ofInt i).div (ofInt n)).ordinal = 0 ∧
      (ofInt lo).ordinal ≤ 0 ∧ 0 ≤ (ofInt hi).ordinal := by
  have hinfinite : (ofInt n).isInfinite = true := by
    have hle := roundToMagnitude_le_infinityMagnitude ((n : ℤ).natAbs * unitsPerOne) 1
    rw [← magnitude_ofInt] at hle
    exact decide_eq_true (le_antisymm hle (Nat.not_lt.mp hn))
  have hlarge : 2 ^ 63 < n := by
    by_contra hlt
    exact hn (isFinite_ofInt (by omega))
  obtain ⟨hzero, hnumber⟩ := ordinal_div_of_isInfinite (isFinite_ofInt hbound) hinfinite
  have hlo' : lo ≤ 0 := by
    by_contra hpos
    have : (n : ℤ) ≤ lo * n := le_mul_of_one_le_left (by omega) (by omega)
    omega
  have hhi' : 0 ≤ hi := by
    by_contra hneg
    have : hi * n ≤ -1 * n := mul_le_mul_of_nonneg_right (by omega) (by omega)
    omega
  have hofZero : (ofInt 0).ordinal = 0 := rfl
  exact ⟨hnumber, hzero, hofZero ▸ ordinal_ofInt_mono hlo', hofZero ▸ ordinal_ofInt_mono hhi'⟩

/-- **A mean as a double** is outside of what it is taken of by no more places than the sum and the
count lose on their way to doubles. -/
theorem ordinal_mean (hn : 0 < n) (hbound : i.natAbs ≤ 2 ^ 63) (hlo : lo * n ≤ i)
    (hhi : i ≤ hi * n) :
    ((ofInt i).div (ofInt n)).isNaN = false ∧
      (ofInt lo).ordinal ≤ ((ofInt i).div (ofInt n)).ordinal + (loss i + loss n) ∧
      ((ofInt i).div (ofInt n)).ordinal ≤ (ofInt hi).ordinal + (loss i + loss n) := by
  by_cases hfinite : (ofInt n).IsFinite
  · have hi' : (ofInt i).IsFinite := isFinite_ofInt hbound
    obtain ⟨-, hnumber⟩ := ordinal_div hi' hfinite (units_ofInt_pos hn hfinite)
    obtain ⟨hlower, hupper⟩ := abs_le.mp (abs_ordinal_div_sub_le hn hi' hfinite)
    obtain ⟨hlo', hhi'⟩ := roundToOrdinal_mean hn hlo hhi
    exact ⟨hnumber, by omega, by omega⟩
  · obtain ⟨hnumber, hzero, hlo', hhi'⟩ := ordinal_mean_of_not_isFinite hbound hfinite hlo hhi
    exact ⟨hnumber, by omega, by omega⟩

end Double

end SqlWindow
