import SqlWindow.Proofs.Double.Number

set_option autoImplicit false

/-! # Rounding to the nearest double

A fraction of units is rounded to the magnitude that is nearest to it. Which fractions go to which
magnitudes is told by the midpoints between neighbours (`roundToMagnitude_le_iff`), and everything
else follows from this: larger fractions are not rounded to smaller magnitudes, and what is a
magnitude already stays one.

Rounding a whole number of units changes it by one part in `2⁵³` at most (`Near`). A fraction that
is off by so much is rounded to the same magnitude or to one of its neighbours.
-/

namespace SqlWindow

namespace Double

variable {a b c d l m n num den : ℕ}

/-! ## Steps between magnitudes -/

theorem gap_mono (h : m ≤ n) : gap m ≤ gap n :=
  Nat.pow_le_pow_right (by decide) (Nat.sub_le_sub_right (Nat.div_le_div_right h) 1)

theorem gap_add {shift q : ℕ} (hq : q < 2 * leadingBit) (h : shift = 0 ∨ leadingBit ≤ q) :
    gap (shift * leadingBit + q) = 2 ^ shift := by
  have hstep : (shift * leadingBit + q) / leadingBit - 1 = shift := by
    unfold leadingBit at *
    omega
  rw [gap, hstep]

/-- Above the lowest steps a gap is a small part of the number in front of it. -/
theorem leadingBit_mul_gap_le (h : leadingBit ≤ m) : leadingBit * gap m ≤ unitsOfMagnitude m := by
  rw [unitsOfMagnitude_of_le h]
  exact Nat.mul_le_mul_right _ (Nat.le_add_right _ _)

theorem gap_of_lt (h : m < leadingBit) : gap m = 1 := by
  rw [gap, Nat.div_eq_of_lt h, Nat.zero_sub, Nat.pow_zero]

/-- A gap is no smaller a part than that of the number behind it. -/
theorem unitsOfMagnitude_succ_le (m : ℕ) :
    unitsOfMagnitude (m + 1) ≤ 2 * leadingBit * gap m := by
  rw [unitsOfMagnitude_succ]
  by_cases hsub : m < leadingBit
  · rw [gap_of_lt hsub, unitsOfMagnitude_of_lt hsub]
    omega
  · have hrest : m % leadingBit < leadingBit := Nat.mod_lt m (by decide)
    rw [unitsOfMagnitude_of_le (Nat.le_of_not_lt hsub), gap, ← Nat.succ_mul]
    exact Nat.mul_le_mul_right _ (by omega)

/-- Twice the number half way between a magnitude and the next one. -/
def twiceMidpoint (m : ℕ) : ℕ := unitsOfMagnitude m + unitsOfMagnitude (m + 1)

theorem twiceMidpoint_eq (m : ℕ) : twiceMidpoint m = 2 * unitsOfMagnitude m + gap m := by
  rw [twiceMidpoint, unitsOfMagnitude_succ]
  omega

theorem twiceMidpoint_lt (h : m < n) : twiceMidpoint m < 2 * unitsOfMagnitude n := by
  have hle : unitsOfMagnitude (m + 1) ≤ unitsOfMagnitude n :=
    strictMono_unitsOfMagnitude.monotone h
  have hlt : unitsOfMagnitude m < unitsOfMagnitude (m + 1) :=
    strictMono_unitsOfMagnitude (Nat.lt_succ_self m)
  unfold twiceMidpoint
  omega

/-- **Midpoints are further apart** than one part in `2⁵³`. -/
theorem twiceMidpoint_step (m : ℕ) :
    (2 ^ 53 + 1) * twiceMidpoint m < 2 ^ 53 * twiceMidpoint (m + 1) := by
  have hsucc := unitsOfMagnitude_succ_le m
  have hgap := gap_mono (Nat.le_add_right m 1)
  have hpos := gap_pos m
  have hnext := unitsOfMagnitude_succ m
  have hmid := twiceMidpoint_eq m
  have hmid' := twiceMidpoint_eq (m + 1)
  unfold leadingBit at hsucc
  omega

/-! ## Which magnitude is nearest -/

/-- A fraction lies between a magnitude and the next one, and is rounded to the one on its side of
the midpoint, or to the even one. -/
theorem roundToMagnitude_cases (num : ℕ) (hden : 0 < den) :
    ∃ floor, unitsOfMagnitude floor * den ≤ num ∧ num < unitsOfMagnitude (floor + 1) * den ∧
      roundToMagnitude num den = min (if twiceMidpoint floor * den < 2 * num ∨
        (2 * num = twiceMidpoint floor * den ∧ floor % 2 = 1) then floor + 1 else floor)
          infinityMagnitude := by
  obtain ⟨hlt, hlead⟩ := leading_bits (num / den)
  generalize hshift : (num / den).log2 - 52 = shift at hlt hlead
  rw [Nat.div_div_eq_div_mul] at hlt hlead
  have hstep : 0 < den * 2 ^ shift := Nat.mul_pos hden (Nat.two_pow_pos shift)
  have hsplit := Nat.div_add_mod num (den * 2 ^ shift)
  have hrest := Nat.mod_lt num hstep
  have hround : roundToMagnitude num den = min (if den * 2 ^ shift < 2 * (num % (den * 2 ^ shift)) ∨
      (2 * (num % (den * 2 ^ shift)) = den * 2 ^ shift ∧
        (shift * leadingBit + num / (den * 2 ^ shift)) % 2 = 1)
      then shift * leadingBit + num / (den * 2 ^ shift) + 1
      else shift * leadingBit + num / (den * 2 ^ shift)) infinityMagnitude := by
    simp only [roundToMagnitude, hshift, Nat.shiftLeft_eq]
  generalize num / (den * 2 ^ shift) = q at *
  generalize num % (den * 2 ^ shift) = rest at *
  have hunits := unitsOfMagnitude_add hlt hlead
  have hsucc := unitsOfMagnitude_succ (shift * leadingBit + q)
  have hmid := twiceMidpoint_eq (shift * leadingBit + q)
  rw [hunits, gap_add hlt hlead] at hsucc hmid
  -- everything is counted in steps, of which the fraction has `q` and a rest
  have hq : q * 2 ^ shift * den = den * 2 ^ shift * q := by
    rw [Nat.mul_comm q, Nat.mul_comm _ den, Nat.mul_assoc]
  have hone : 2 ^ shift * den = den * 2 ^ shift := Nat.mul_comm _ _
  have hfloor : unitsOfMagnitude (shift * leadingBit + q) * den = den * 2 ^ shift * q := by
    rw [hunits, hq]
  have hnext : unitsOfMagnitude (shift * leadingBit + q + 1) * den =
      den * 2 ^ shift * q + den * 2 ^ shift := by
    rw [hsucc, Nat.add_mul, hq, hone]
  have htwice : twiceMidpoint (shift * leadingBit + q) * den =
      2 * (den * 2 ^ shift * q) + den * 2 ^ shift := by
    rw [hmid, Nat.add_mul, Nat.mul_assoc, hq, hone]
  refine ⟨shift * leadingBit + q, by omega, by omega, ?_⟩
  rw [hround, htwice]
  congr 2
  apply propext
  constructor
  · rintro (h | ⟨h, hodd⟩)
    · exact .inl (by omega)
    · exact .inr ⟨by omega, hodd⟩
  · rintro (h | ⟨h, hodd⟩)
    · exact .inl (by omega)
    · exact .inr ⟨by omega, hodd⟩

theorem roundToMagnitude_le_infinityMagnitude (num den : ℕ) :
    roundToMagnitude num den ≤ infinityMagnitude :=
  Nat.min_le_right _ _

/-- **Rounding by midpoints.** A fraction is rounded to a magnitude or below when it is below the
midpoint behind the magnitude, or on this midpoint and the magnitude is even. -/
theorem roundToMagnitude_le_iff (hden : 0 < den) (hm : m < infinityMagnitude) :
    roundToMagnitude num den ≤ m ↔
      2 * num < twiceMidpoint m * den ∨ (2 * num = twiceMidpoint m * den ∧ m % 2 = 0) := by
  obtain ⟨floor, hle, hlt, hround⟩ := roundToMagnitude_cases num hden
  have hmin : roundToMagnitude num den ≤ m ↔ (if twiceMidpoint floor * den < 2 * num ∨
      (2 * num = twiceMidpoint floor * den ∧ floor % 2 = 1) then floor + 1 else floor) ≤ m := by
    rw [hround, min_le_iff]
    exact or_iff_left (Nat.not_le.mpr hm)
  rw [hmin]
  rcases Nat.lt_trichotomy floor m with hfloor | rfl | hfloor
  · -- the fraction is in front of `m`
    have hnext : unitsOfMagnitude (floor + 1) * den ≤ unitsOfMagnitude m * den :=
      Nat.mul_le_mul_right den (strictMono_unitsOfMagnitude.monotone hfloor)
    have hgap := Nat.mul_pos (gap_pos m) hden
    rw [twiceMidpoint_eq m, Nat.add_mul, Nat.mul_assoc]
    refine iff_of_true ?_ (.inl (by omega))
    split <;> omega
  · split
    · refine iff_of_false (by omega) ?_
      omega
    · refine iff_of_true (Nat.le_refl _) ?_
      omega
  · -- the fraction is behind the midpoint
    have hmid : twiceMidpoint m * den < 2 * unitsOfMagnitude floor * den :=
      Nat.mul_lt_mul_of_pos_right (twiceMidpoint_lt hfloor) hden
    rw [Nat.mul_assoc] at hmid
    refine iff_of_false ?_ (by omega)
    split <;> omega

/-! ## Comparing rounded fractions -/

/-- **A larger fraction is not rounded to a smaller magnitude.** -/
theorem roundToMagnitude_mono (hb : 0 < b) (hd : 0 < d) (h : a * d ≤ c * b) :
    roundToMagnitude a b ≤ roundToMagnitude c d := by
  rcases Nat.lt_or_ge (roundToMagnitude c d) infinityMagnitude with hm | hinfinite
  · have hself : roundToMagnitude c d ≤ roundToMagnitude c d := Nat.le_refl _
    rw [roundToMagnitude_le_iff hd hm] at hself
    rw [roundToMagnitude_le_iff hb hm]
    generalize roundToMagnitude c d = m at *
    -- cross-multiplied, both fractions are compared with the same midpoint
    have hcross : 2 * a * d ≤ 2 * c * b := by
      rw [Nat.mul_assoc, Nat.mul_assoc]
      omega
    rcases hself with hlt | ⟨heq, heven⟩
    · refine .inl (Nat.lt_of_mul_lt_mul_right (a := d) ?_)
      calc 2 * a * d ≤ 2 * c * b := hcross
        _ < twiceMidpoint m * d * b := Nat.mul_lt_mul_of_pos_right hlt hb
        _ = twiceMidpoint m * b * d := Nat.mul_right_comm _ _ _
    · have hle : 2 * a ≤ twiceMidpoint m * b := by
        refine Nat.le_of_mul_le_mul_right ?_ hd
        calc 2 * a * d ≤ 2 * c * b := hcross
          _ = twiceMidpoint m * d * b := by rw [heq]
          _ = twiceMidpoint m * b * d := Nat.mul_right_comm _ _ _
      rcases Nat.lt_or_eq_of_le hle with hlt | heq
      · exact .inl hlt
      · exact .inr ⟨heq, heven⟩
  · exact (roundToMagnitude_le_infinityMagnitude a b).trans hinfinite

/-- **Magnitudes are kept.** -/
theorem roundToMagnitude_unitsOfMagnitude (hm : m < infinityMagnitude) :
    roundToMagnitude (unitsOfMagnitude m) 1 = m := by
  apply Nat.le_antisymm
  · rw [roundToMagnitude_le_iff Nat.one_pos hm, twiceMidpoint_eq]
    have := gap_pos m
    omega
  · by_contra hlt
    have hle : roundToMagnitude (unitsOfMagnitude m) 1 ≤ m - 1 := by omega
    have hmid := twiceMidpoint_lt (show m - 1 < m by omega)
    rw [roundToMagnitude_le_iff Nat.one_pos (by omega)] at hle
    omega

/-! ## Numbers that are off by a rounding -/

/-- Two numbers are no more than `l` parts in `2⁵³` apart. -/
def Near (l a b : ℕ) : Prop := 2 ^ 53 * a ≤ (2 ^ 53 + l) * b ∧ 2 ^ 53 * b ≤ (2 ^ 53 + l) * a

theorem near_self (l a : ℕ) : Near l a a :=
  ⟨Nat.mul_le_mul_right a (Nat.le_add_right _ l), Nat.mul_le_mul_right a (Nat.le_add_right _ l)⟩

/-- **Rounding loses little.** A number of units is near what it is rounded to. -/
theorem near_unitsOfMagnitude (hfinite : roundToMagnitude n 1 < infinityMagnitude) :
    Near 1 (unitsOfMagnitude (roundToMagnitude n 1)) n := by
  have hbehind : roundToMagnitude n 1 ≤ roundToMagnitude n 1 := Nat.le_refl _
  rw [roundToMagnitude_le_iff Nat.one_pos hfinite] at hbehind
  have hfront : ∀ m, roundToMagnitude n 1 = m + 1 → twiceMidpoint m ≤ 2 * n := by
    intro m hm
    by_contra hlt
    have hle : roundToMagnitude n 1 ≤ m := by
      rw [roundToMagnitude_le_iff Nat.one_pos (by omega)]
      omega
    omega
  generalize roundToMagnitude n 1 = m at *
  -- the number is off by half a gap at most, on either side; small gaps are a unit each
  have hhalf (m : ℕ) : gap m = 1 ∨ leadingBit * gap m ≤ unitsOfMagnitude m := by
    rcases Nat.lt_or_ge m leadingBit with hsub | hlead
    · exact .inl (gap_of_lt hsub)
    · exact .inr (leadingBit_mul_gap_le hlead)
  constructor
  · cases m with
    | zero =>
      rw [unitsOfMagnitude_of_lt (by decide)]
      omega
    | succ m =>
      have hmid := hfront m rfl
      rw [twiceMidpoint_eq] at hmid
      rw [unitsOfMagnitude_succ]
      have hgap := hhalf m
      unfold leadingBit at hgap
      omega
  · rw [twiceMidpoint_eq] at hbehind
    have hgap := hhalf m
    unfold leadingBit at hgap
    omega

/-- A fraction that is larger by one part in `2⁵³` at most is rounded to the next magnitude at
most. -/
theorem roundToMagnitude_le_add (hl : l ≤ 1) (hb : 0 < b) (hd : 0 < d)
    (h : 2 ^ 53 * (a * d) ≤ (2 ^ 53 + l) * (c * b)) :
    roundToMagnitude a b ≤ roundToMagnitude c d + l := by
  obtain rfl | rfl : l = 0 ∨ l = 1 := by omega
  · exact roundToMagnitude_mono hb hd (Nat.le_of_mul_le_mul_left h (by decide))
  rcases Nat.lt_or_ge (roundToMagnitude c d + 1) infinityMagnitude with hm | hinfinite
  · have hself : roundToMagnitude c d ≤ roundToMagnitude c d := Nat.le_refl _
    rw [roundToMagnitude_le_iff hd (by omega)] at hself
    rw [roundToMagnitude_le_iff hb hm]
    generalize roundToMagnitude c d = m at *
    have hle : 2 * c ≤ twiceMidpoint m * d := by omega
    refine .inl (Nat.lt_of_mul_lt_mul_left (a := 2 ^ 53 * d) ?_)
    calc 2 ^ 53 * d * (2 * a) = 2 * (2 ^ 53 * (a * d)) := by ring
      _ ≤ 2 * ((2 ^ 53 + 1) * (c * b)) := Nat.mul_le_mul_left 2 h
      _ = (2 ^ 53 + 1) * (2 * c) * b := by ring
      _ ≤ (2 ^ 53 + 1) * (twiceMidpoint m * d) * b :=
        Nat.mul_le_mul_right b (Nat.mul_le_mul_left _ hle)
      _ = (2 ^ 53 + 1) * twiceMidpoint m * (d * b) := by ring
      _ < 2 ^ 53 * twiceMidpoint (m + 1) * (d * b) :=
        Nat.mul_lt_mul_of_pos_right (twiceMidpoint_step m) (Nat.mul_pos hd hb)
      _ = 2 ^ 53 * d * (twiceMidpoint (m + 1) * b) := by ring
  · exact (roundToMagnitude_le_infinityMagnitude a b).trans hinfinite

/-- **Fractions with near numerators** are rounded to the same magnitude or to neighbours. -/
theorem Near.abs_round_sub_le (h : Near l a c) (hl : l ≤ 1) (hb : 0 < b) :
    |(roundToMagnitude (a * n) b : ℤ) - roundToMagnitude (c * n) b| ≤ l := by
  have hle {a c : ℕ} (h : 2 ^ 53 * a ≤ (2 ^ 53 + l) * c) :
      roundToMagnitude (a * n) b ≤ roundToMagnitude (c * n) b + l := by
    apply roundToMagnitude_le_add hl hb hb
    calc 2 ^ 53 * (a * n * b) = 2 ^ 53 * a * (n * b) := by ring
      _ ≤ (2 ^ 53 + l) * c * (n * b) := Nat.mul_le_mul_right _ h
      _ = (2 ^ 53 + l) * (c * n * b) := by ring
  have hac := hle h.1
  have hca := hle h.2
  rw [abs_le]
  omega

/-- **Fractions with near denominators** are rounded to the same magnitude or to neighbours. -/
theorem Near.abs_round_sub_le_of_den (h : Near l b d) (hl : l ≤ 1) (hb : 0 < b) (hd : 0 < d) :
    |(roundToMagnitude a b : ℤ) - roundToMagnitude a d| ≤ l := by
  have hle {b d : ℕ} (hb : 0 < b) (hd : 0 < d) (h : 2 ^ 53 * d ≤ (2 ^ 53 + l) * b) :
      roundToMagnitude a b ≤ roundToMagnitude a d + l := by
    apply roundToMagnitude_le_add hl hb hd
    calc 2 ^ 53 * (a * d) = 2 ^ 53 * d * a := by ring
      _ ≤ (2 ^ 53 + l) * b * a := Nat.mul_le_mul_right _ h
      _ = (2 ^ 53 + l) * (a * b) := by ring
  have hbd := hle hb hd h.2
  have hdb := hle hd hb h.1
  rw [abs_le]
  omega

end Double

end SqlWindow
