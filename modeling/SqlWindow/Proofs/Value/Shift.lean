import SqlWindow.Proofs.Value.Order
import SqlWindow.Value.Shift

set_option autoImplicit false

/-! # Distances keep the order

Moving values by one distance does not bring them out of order: integers stop at the ends of
their range, and so do timestamps, which outside of leap seconds move by plain addition of
nanoseconds.
-/

namespace SqlWindow

/-! ## Integers -/

theorem toInt_ofIntClamp (i : Int) :
    (Int64.ofIntClamp i).toInt = max Int64.minValue.toInt (min i Int64.maxValue.toInt) := by
  unfold Int64.ofIntClamp
  split
  · split
    · rw [Int64.toInt_ofIntLE]
      omega
    · have : Int64.minValue.toInt ≤ Int64.maxValue.toInt := by decide
      omega
  · have : Int64.minValue.toInt ≤ Int64.maxValue.toInt := by decide
    omega

theorem toInt_ofIntClamp_mono {i j : Int} (h : i ≤ j) :
    (Int64.ofIntClamp i).toInt ≤ (Int64.ofIntClamp j).toInt := by
  rw [toInt_ofIntClamp, toInt_ofIntClamp]
  omega

/-! ## Timestamps -/

namespace Timestamp

/-- The timestamp is not inside a leap second. -/
def IsOrdinary (t : Timestamp) : Prop := t.nanos < nanosPerSecond

instance (t : Timestamp) : Decidable t.IsOrdinary := inferInstanceAs (Decidable (_ < _))

/-- Nanoseconds since the start of 1970. -/
def total (t : Timestamp) : Int := t.seconds * nanosPerSecond + t.nanos

variable {t u : Timestamp}

/-- Timestamps are ordered by second, then by nanosecond. -/
theorem isLE_order_iff_lex :
    (t.order u).isLE ↔ t.seconds < u.seconds ∨ t.seconds = u.seconds ∧ t.nanos ≤ u.nanos := by
  unfold order
  rcases Int.lt_trichotomy t.seconds u.seconds with h | h | h
  · rw [Std.compare_eq_lt.mpr h]
    simp only [Ordering.then, Ordering.isLE, true_iff]
    omega
  · rw [h, Std.LawfulEqOrd.compare_eq_iff_eq.mpr rfl, Ordering.then, Nat.isLE_compare]
    omega
  · rw [Std.compare_eq_gt.mpr h]
    simp only [Ordering.then, Ordering.isLE, Bool.false_eq_true, false_iff]
    omega

/-- Ordinary timestamps are ordered as their nanoseconds since 1970. -/
theorem isLE_order_iff (ht : t.IsOrdinary) (hu : u.IsOrdinary) :
    (t.order u).isLE ↔ t.total ≤ u.total := by
  rw [isLE_order_iff_lex]
  unfold IsOrdinary nanosPerSecond at ht hu
  unfold total nanosPerSecond
  omega

/-- Carrying brings the nanoseconds into one second and keeps the moment. -/
theorem carry_spec (seconds : Int) {nanos : Int} (hlow : -nanosPerSecond ≤ nanos)
    (hhigh : nanos < 2 * nanosPerSecond) :
    ∃ s n, carry seconds nanos = (s, n) ∧ 0 ≤ n ∧ n < nanosPerSecond ∧
      s * nanosPerSecond + n = seconds * nanosPerSecond + nanos := by
  unfold carry
  unfold nanosPerSecond at *
  split
  · exact ⟨_, _, rfl, by omega, by omega, by omega⟩
  · split
    · exact ⟨_, _, rfl, by omega, by omega, by omega⟩
    · exact ⟨_, _, rfl, by omega, by omega, by omega⟩

theorem total_earliest : earliest.total = minSeconds * 1000000000 := by
  simp [total, earliest, nanosPerSecond]

theorem total_latest : latest.total = maxSeconds * 1000000000 + 999999999 := by
  simp [total, latest, nanosPerSecond]

/-- Held to the range, parts that make an ordinary moment give the moment of the range nearest to
it, as what is below the range was moved backward and what is above it forward. -/
theorem total_heldToRange {d s n : Int} (hn : 0 ≤ n) (hn' : n < nanosPerSecond)
    (hbackward : s < minSeconds → d < 0) (hforward : maxSeconds < s → 0 ≤ d) :
    (heldToRange d (s, n)).IsOrdinary ∧
      (heldToRange d (s, n)).total =
        max earliest.total (min (s * nanosPerSecond + n) latest.total) := by
  have hn₀ : n.toNat < nanosPerSecond := by omega
  unfold heldToRange ofParts?
  -- Out of range, the sign of the distance tells which end of the range is meant.
  by_cases hvalid : Valid s n.toNat
  · rw [dif_pos hvalid]
    obtain ⟨hmin, hmax, -⟩ := hvalid
    refine ⟨hn₀, ?_⟩
    rw [total_earliest, total_latest]
    unfold total nanosPerSecond at *
    show s * _ + (n.toNat : Int) = _
    omega
  · rw [dif_neg hvalid]
    have hout : s < minSeconds ∨ maxSeconds < s := by
      by_cases hs : minSeconds ≤ s
      · exact .inr (Int.not_le.mp fun hs' => hvalid ⟨hs, hs', .inl hn₀⟩)
      · exact .inl (Int.not_le.mp hs)
    show IsOrdinary (if d < 0 then earliest else latest) ∧
      total (if d < 0 then earliest else latest) = _
    by_cases hd : d < 0
    · rw [if_pos hd, total_earliest, total_latest]
      refine ⟨by simp [IsOrdinary, earliest, nanosPerSecond], ?_⟩
      unfold nanosPerSecond minSeconds maxSeconds at *
      omega
    · rw [if_neg hd, total_earliest, total_latest]
      refine ⟨by simp [IsOrdinary, latest, nanosPerSecond], ?_⟩
      unfold nanosPerSecond minSeconds maxSeconds at *
      omega

/-- Whole seconds and the milliseconds left over have the sign of the distance. -/
theorem parts_spec (d : Int) :
    1000 * d.tdiv 1000 + d.tmod 1000 = d ∧ -1000 < d.tmod 1000 ∧ d.tmod 1000 < 1000 ∧
      (0 ≤ d → 0 ≤ d.tmod 1000) ∧ (d ≤ 0 → d.tmod 1000 ≤ 0) := by
  refine ⟨Int.mul_tdiv_add_tmod d 1000, Int.lt_tmod_of_pos d (by decide),
    Int.tmod_lt_of_pos d (by decide), Int.tmod_nonneg 1000, fun hd => ?_⟩
  have h := Int.tmod_nonneg 1000 (show 0 ≤ -d by omega)
  rw [Int.neg_tmod] at h
  omega

/-- When whole seconds and the rest of a distance are added to an ordinary moment apart, one carry
brings it to the moment at this distance, which is held to the range. -/
theorem total_heldToRange_carry {d seconds nanos : Int} (hnanos : 0 ≤ nanos)
    (hnanos' : nanos < nanosPerSecond)
    (hbackward : seconds * nanosPerSecond + nanos + d * 1000000 < earliest.total → d < 0)
    (hforward : latest.total < seconds * nanosPerSecond + nanos + d * 1000000 → 0 ≤ d) :
    let moved := heldToRange d (carry (seconds + d.tdiv 1000) (nanos + d.tmod 1000 * 1000000))
    moved.IsOrdinary ∧ moved.total =
      max earliest.total (min (seconds * nanosPerSecond + nanos + d * 1000000) latest.total) := by
  obtain ⟨hd, hlow, hhigh, -⟩ := parts_spec d
  obtain ⟨s, n, hcarry, hn, hn', htotal⟩ := @carry_spec (seconds + d.tdiv 1000)
    (nanos + d.tmod 1000 * 1000000) (by unfold nanosPerSecond at *; omega)
    (by unfold nanosPerSecond at *; omega)
  have hsum : seconds * nanosPerSecond + nanos + d * 1000000 = s * nanosPerSecond + n := by
    unfold nanosPerSecond at *
    omega
  rw [hsum, total_earliest] at hbackward
  rw [hsum, total_latest] at hforward
  rw [hcarry, hsum]
  unfold nanosPerSecond at *
  exact total_heldToRange hn hn' (by omega) (by omega)

/-- **Moving.** Outside of leap seconds a move adds to the nanoseconds since 1970, held to the
range. -/
theorem total_shift (ht : t.IsOrdinary) (d : Int) :
    (t.shift d).IsOrdinary ∧
      (t.shift d).total = max earliest.total (min (t.total + d * 1000000) latest.total) := by
  obtain ⟨hmin, hmax, -⟩ := t.valid
  unfold IsOrdinary at ht
  have hordinary : (t.nanos : Int) < nanosPerSecond := by omega
  have hearliest := total_earliest
  have hlatest := total_latest
  rw [shift, moved, if_pos hordinary]
  refine total_heldToRange_carry (Int.natCast_nonneg t.nanos) hordinary ?_ ?_
  · unfold nanosPerSecond at *
    omega
  · unfold nanosPerSecond at *
    omega

/-- Moves by one distance keep the order of ordinary timestamps. -/
theorem order_shift (ht : t.IsOrdinary) (hu : u.IsOrdinary) (h : (t.order u).isLE) (d : Int) :
    ((t.shift d).order (u.shift d)).isLE := by
  obtain ⟨ht', htotal⟩ := total_shift ht d
  obtain ⟨hu', htotal'⟩ := total_shift hu d
  rw [isLE_order_iff ht hu] at h
  rw [isLE_order_iff ht' hu', htotal, htotal']
  omega

end Timestamp

/-! ## Values -/

namespace Value

/-- The value moved by a whole number; what does not move by whole numbers stays. -/
def movedBy (d : Int64) : Value → Value
  | integer a => integer (Int64.ofIntClamp (a.toInt + d.toInt))
  | timestamp t => timestamp (t.shift d.toInt)
  | v => v

/-- A value that whole numbers move evenly: NULL, an integer, or a timestamp outside of leap
seconds. -/
def MovesEvenly : Value → Prop
  | null _ | integer _ => True
  | timestamp t => t.IsOrdinary
  | _ => False

variable {v w : Value}

theorem MovesEvenly.shift (h : v.MovesEvenly) (d : Int64) :
    v.shift (.integer d) = .ok (v.movedBy d) := by
  cases v <;> first | rfl | exact h.elim

theorem isNull_movedBy (v : Value) (d : Int64) : (v.movedBy d).isNull = v.isNull := by
  cases v <;> simp only [movedBy, isNull]

theorem type_movedBy (v : Value) (d : Int64) : (v.movedBy d).type = v.type := by
  cases v <;> simp only [movedBy, type]

theorem rank_movedBy (v : Value) (d : Int64) : (v.movedBy d).rank = v.rank := by
  cases v <;> simp only [movedBy, rank]

/-- **Moving keeps the order.** Values that move evenly stay in order when they move by one
distance. -/
theorem order_movedBy (hv : v.MovesEvenly) (hw : w.MovesEvenly) (h : (v.order w).isLE)
    (d : Int64) : ((v.movedBy d).order (w.movedBy d)).isLE := by
  by_cases hrank : v.rank ≠ w.rank
  · have hrank' : (v.movedBy d).rank ≠ (w.movedBy d).rank := by
      rwa [rank_movedBy, rank_movedBy]
    rw [order_of_rank_ne hrank', rank_movedBy, rank_movedBy]
    rwa [order_of_rank_ne hrank] at h
  replace hrank := Decidable.not_not.mp hrank
  cases v <;> cases w
  case null.null => rfl
  case integer.integer a b =>
    have hab : (compare a.toInt b.toInt).isLE := h
    show (compare (Int64.ofIntClamp (a.toInt + d.toInt)).toInt
      (Int64.ofIntClamp (b.toInt + d.toInt)).toInt).isLE
    rw [Int.isLE_compare] at hab ⊢
    exact toInt_ofIntClamp_mono (Int.add_le_add_right hab _)
  case timestamp.timestamp t u => exact Timestamp.order_shift hv hw h d.toInt
  all_goals first | exact hv.elim | exact hw.elim | nomatch hrank

end Value

end SqlWindow
