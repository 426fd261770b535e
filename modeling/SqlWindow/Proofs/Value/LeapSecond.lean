import SqlWindow.Proofs.Value.Shift

set_option autoImplicit false

/-! # Distances next to leap seconds

Integers keep their order when they are moved by one distance, and so do timestamps outside of
leap seconds. A timestamp inside a leap second counts as the same fraction of the second before
when it is moved forward out of it, and as the same fraction of the second behind when it is moved
back out of it. Its neighbours do not jump, so they can pass it: behind 59.8 s comes the moment
half a second into the leap second, and behind that 60.2 s, but not at every distance.

Two timestamps in order stay in order at every distance when the one is not after the other even
if the other loses its extra second, or when both lie in one leap second and so leave it alike. In
the last second of the calendar it is the other way round, as moves forward out of it end at its
last ordinary moment: a timestamp before the leap second stays before what is in it, and two inside
of it have to leave it at the same distances. No other pairs stay in order at every distance.
-/

namespace SqlWindow

namespace Timestamp

variable {t u : Timestamp} {d : Int}

/-! ## Order and totals -/

theorem nanos_lt (t : Timestamp) : t.nanos < 2000000000 := by
  obtain ⟨-, -, hnanos⟩ := t.valid
  unfold nanosPerSecond at hnanos
  omega

theorem total_eq (t : Timestamp) : t.total = t.seconds * 1000000000 + t.nanos := rfl

theorem isOrdinary_iff (t : Timestamp) : t.IsOrdinary ↔ t.nanos < 1000000000 := Iff.rfl

/-- Leap seconds are last seconds of minutes. -/
theorem seconds_mod_of_not_isOrdinary (ht : ¬ t.IsOrdinary) : t.seconds % 60 = 59 := by
  obtain ⟨-, -, hnanos⟩ := t.valid
  exact (hnanos.resolve_left ht).2

/-- Up to an ordinary timestamp the totals tell the order. -/
theorem isLE_of_total_le (hu : u.IsOrdinary) (h : t.total ≤ u.total) : (t.order u).isLE := by
  rw [isOrdinary_iff] at hu
  rw [total_eq, total_eq] at h
  rw [isLE_order_iff_lex]
  omega

/-- Up to any timestamp they tell it once its extra second is taken off, or at the start of the
range. -/
theorem isLE_of_total_le_max (h : t.total ≤ max earliest.total (u.total - nanosPerSecond)) :
    (t.order u).isLE := by
  have hu := u.nanos_lt
  have hmin : minSeconds ≤ u.seconds := u.valid.1
  rw [total_earliest, total_eq, total_eq] at h
  unfold nanosPerSecond at h
  rw [isLE_order_iff_lex]
  omega

/-- Nanoseconds since the start of 1970, without the extra second inside a leap second. -/
def totalWithoutExtra (t : Timestamp) : Int :=
  if t.IsOrdinary then t.total else t.total - nanosPerSecond

/-- The most milliseconds by which a timestamp can move forward inside its leap second. -/
def room (t : Timestamp) : Nat := (1999999999 - t.nanos) / 1000000

/-- The two leave their seconds alike: the one is not after the other even if the other loses its
extra second; or both lie in one leap second, and there is a second behind it or they have the same
room in it; or the one lies in the last second of the calendar and the other in the leap second
there. -/
def LeaveAlike (t u : Timestamp) : Prop :=
  t.total ≤ u.totalWithoutExtra ∨
    (¬ u.IsOrdinary ∧ t.seconds = u.seconds ∧
      if t.IsOrdinary then t.seconds = maxSeconds else t.seconds < maxSeconds ∨ t.room = u.room)

instance (t u : Timestamp) : Decidable (t.LeaveAlike u) := inferInstanceAs (Decidable (_ ∨ _))

theorem totalWithoutExtra_lt (t : Timestamp) :
    t.totalWithoutExtra < (t.seconds + 1) * 1000000000 := by
  have hnanos := t.nanos_lt
  unfold totalWithoutExtra
  split
  case isTrue ht =>
    rw [isOrdinary_iff] at ht
    rw [total_eq]
    omega
  case isFalse ht =>
    rw [total_eq]
    unfold nanosPerSecond
    omega

theorem total_le_latest (h : t.seconds < maxSeconds) : t.total ≤ latest.total := by
  have hnanos := t.nanos_lt
  rw [total_latest, total_eq]
  omega

/-! ## Moving out of a leap second -/

/-- What a move makes of a timestamp inside a leap second. -/
inductive LeavesTo (t : Timestamp) (d : Int) (t' : Timestamp) : Prop where
  /-- Out of the second and forward, the extra second is dropped. -/
  | forward (hd : 2 * (nanosPerSecond : Int) ≤ t.nanos + d * 1000000) (ht' : t'.IsOrdinary)
      (htotal : t'.total = max earliest.total
        (min (t.total - nanosPerSecond + d * 1000000) latest.total))
  /-- By a second or more backward, the extra second counts as the second behind. -/
  | backward (hd : d ≤ -1000) (ht' : t'.IsOrdinary)
      (htotal : t'.total = max earliest.total (min (t.total + d * 1000000) latest.total))
  /-- Any other move stays in the second. -/
  | inside (hlow : -1000 < d) (hhigh : t.nanos + d * 1000000 < 2 * (nanosPerSecond : Int))
      (hseconds : t'.seconds = t.seconds) (hnanos : (t'.nanos : Int) = t.nanos + d * 1000000)

/-- **Moving inside a leap second.** A move goes forward out of it, back out of it, or stays. -/
theorem leavesTo_shift (ht : ¬ t.IsOrdinary) (d : Int) : t.LeavesTo d (t.shift d) := by
  obtain ⟨hd, hlow, hhigh, hforward, hbackward⟩ := parts_spec d
  obtain ⟨hmin, hmax, hnanos⟩ := t.valid
  obtain ⟨hnanos, hleap⟩ := hnanos.resolve_left ht
  have hearliest := total_earliest
  have hlatest := total_latest
  unfold IsOrdinary at ht
  have ht' : ¬ (t.nanos : Int) < nanosPerSecond := by omega
  have hfraction : 0 ≤ (t.nanos - nanosPerSecond : Int) := by omega
  have hfraction' : (t.nanos - nanosPerSecond : Int) < nanosPerSecond := by omega
  rw [shift, moved, if_neg ht']
  split
  case isTrue hout =>
    have hout' : 2 * (nanosPerSecond : Int) ≤ t.nanos + d * 1000000 := by
      unfold nanosPerSecond at *
      omega
    obtain ⟨hordinary, htotal⟩ := @total_heldToRange_carry d t.seconds _ hfraction hfraction'
      (by unfold nanosPerSecond at *; omega) (by unfold nanosPerSecond at *; omega)
    have hsum : t.seconds * nanosPerSecond + (t.nanos - nanosPerSecond) + d * 1000000 =
        t.total - nanosPerSecond + d * 1000000 := by
      unfold total
      omega
    exact .forward hout' hordinary (hsum ▸ htotal)
  case isFalse hout =>
    split
    case isTrue hback =>
      -- the extra second is counted as the one behind
      obtain ⟨hordinary, htotal⟩ := @total_heldToRange_carry d (t.seconds + 1) _ hfraction
        hfraction' (by omega) (by unfold nanosPerSecond at *; omega)
      have hsum : (t.seconds + 1) * nanosPerSecond + (t.nanos - nanosPerSecond) + d * 1000000 =
          t.total + d * 1000000 := by
        unfold total nanosPerSecond
        omega
      exact .backward (by omega) hordinary (hsum ▸ htotal)
    case isFalse hback =>
      have hparts : d.tmod 1000 = d := by
        unfold nanosPerSecond at *
        omega
      have hhigh' : t.nanos + d * 1000000 < 2 * (nanosPerSecond : Int) := by
        unfold nanosPerSecond at *
        omega
      have hnonneg : 0 ≤ t.nanos + d * 1000000 := by
        unfold nanosPerSecond at *
        omega
      rw [hparts]
      have hvalid : Valid t.seconds (t.nanos + d * 1000000).toNat :=
        ⟨hmin, hmax, .inr ⟨by omega, hleap⟩⟩
      rw [heldToRange, ofParts?, dif_pos hvalid]
      exact .inside (by omega) hhigh' rfl (Int.toNat_of_nonneg hnonneg)

/-- Held to the range, the nanoseconds since 1970 keep their order. -/
theorem held_mono {x y : Int} (h : x ≤ y) :
    max earliest.total (min x latest.total) ≤ max earliest.total (min y latest.total) := by
  omega

/-- What lies in a second of the range is in the range. -/
theorem held_of_seconds {s x : Int} (hmin : minSeconds ≤ s) (hmax : s ≤ maxSeconds)
    (hlow : s * 1000000000 ≤ x) (hhigh : x < (s + 1) * 1000000000) :
    max earliest.total (min x latest.total) = x := by
  rw [total_earliest, total_latest]
  omega

theorem le_max_of_le_held {x y : Int} (h : x ≤ max earliest.total (min y latest.total)) :
    x ≤ max earliest.total y := by
  generalize earliest.total = first at *
  generalize latest.total = last at *
  omega

theorem le_of_held_le {x y : Int} (hx : x ≤ latest.total)
    (h : max earliest.total (min x latest.total) ≤ y) : x ≤ y := by
  generalize earliest.total = first at *
  generalize latest.total = last at *
  omega

/-- **Any move.** What does not stay inside a leap second comes to an ordinary moment, between the
ones that the total without and with the extra second come to. -/
theorem shift_cases (t : Timestamp) (d : Int) :
    ((t.shift d).IsOrdinary ∧
      max earliest.total (min (t.totalWithoutExtra + d * 1000000) latest.total) ≤
        (t.shift d).total ∧
      (t.shift d).total ≤ max earliest.total (min (t.total + d * 1000000) latest.total)) ∨
    (¬ t.IsOrdinary ∧ (t.shift d).seconds = t.seconds ∧
      ((t.shift d).nanos : Int) = t.nanos + d * 1000000) := by
  by_cases ht : t.IsOrdinary
  · obtain ⟨hordinary, htotal⟩ := total_shift ht d
    rw [totalWithoutExtra, if_pos ht, htotal]
    exact .inl ⟨hordinary, Int.le_refl _, Int.le_refl _⟩
  · have hextra : t.total - nanosPerSecond ≤ t.total := by
      unfold nanosPerSecond
      omega
    have hmono := held_mono (Int.add_le_add_right hextra (d * 1000000))
    rw [totalWithoutExtra, if_neg ht]
    cases leavesTo_shift ht d with
    | forward hd hordinary htotal =>
      rw [htotal]
      exact .inl ⟨hordinary, Int.le_refl _, hmono⟩
    | backward hd hordinary htotal =>
      rw [htotal]
      exact .inl ⟨hordinary, hmono, Int.le_refl _⟩
    | inside hlow hhigh hseconds hnanos => exact .inr ⟨ht, hseconds, hnanos⟩

/-! ## Two timestamps -/

/-- One timestamp not after the other, even if the other loses its extra second: they stay in
order. -/
theorem isLE_shift_of_total_le (h : t.total ≤ u.totalWithoutExtra) (d : Int) :
    ((t.shift d).order (u.shift d)).isLE := by
  have hheld := held_mono (Int.add_le_add_right h (d * 1000000))
  have htcases := shift_cases t d
  have hucases := shift_cases u d
  generalize t.shift d = t' at *
  generalize u.shift d = u' at *
  obtain ⟨ht', -, htotal⟩ | ⟨ht, htseconds, htnanos⟩ := htcases
  · replace hheld := Int.le_trans htotal hheld
    obtain ⟨hu', hutotal, -⟩ | ⟨hu, huseconds, hunanos⟩ := hucases
    · exact isLE_of_total_le hu' (Int.le_trans hheld hutotal)
    · -- the one comes at most to the moment of the other without the extra second
      have hmoved : u.totalWithoutExtra + d * 1000000 = u'.total - nanosPerSecond := by
        rw [totalWithoutExtra, if_neg hu, total_eq, total_eq]
        omega
      rw [hmoved] at hheld
      exact isLE_of_total_le_max (le_max_of_le_held hheld)
  · have hmoved : t.total + d * 1000000 = t'.total := by
      rw [total_eq, total_eq]
      omega
    obtain ⟨hu', hutotal, -⟩ | ⟨hu, huseconds, hunanos⟩ := hucases
    · replace hheld := Int.le_trans hheld hutotal
      rw [hmoved] at hheld
      -- the leap second of the one is before the second of the other, so inside of the range
      have hbefore : t.seconds < u.seconds := by
        have hu := u.totalWithoutExtra_lt
        rw [isOrdinary_iff] at ht
        rw [total_eq] at h
        omega
      have hinside : t'.seconds < maxSeconds :=
        htseconds ▸ Int.lt_of_lt_of_le hbefore u.valid.2.1
      exact isLE_of_total_le hu' (le_of_held_le (total_le_latest hinside) hheld)
    · have hle : (t.order u).isLE := isLE_of_total_le_max (by
        rw [totalWithoutExtra, if_neg hu] at h
        exact Int.le_trans h (Int.le_max_right _ _))
      rw [isLE_order_iff_lex] at hle ⊢
      omega

/-- Two timestamps in order inside one leap second leave it in order, when there is a second behind
it or they leave it at the same distances. -/
theorem isLE_shift_of_seconds_eq (ht : ¬ t.IsOrdinary) (hu : ¬ u.IsOrdinary)
    (hseconds : t.seconds = u.seconds) (hroom : t.seconds < maxSeconds ∨ t.room = u.room)
    (h : t.nanos ≤ u.nanos) (d : Int) : ((t.shift d).order (u.shift d)).isLE := by
  have hlt := u.nanos_lt
  have htotal_le : t.total ≤ u.total := by
    rw [total_eq, total_eq]
    omega
  have htleaves := leavesTo_shift ht d
  have huleaves := leavesTo_shift hu d
  generalize t.shift d = t' at *
  generalize u.shift d = u' at *
  cases htleaves with
  | forward hd ht' htotal =>
    unfold nanosPerSecond at hd
    cases huleaves with
    | forward he hu' hutotal =>
      rw [isLE_order_iff ht' hu', htotal, hutotal]
      exact held_mono (by omega)
    | backward he => omega
    | inside he he' =>
      unfold nanosPerSecond at he'
      omega
  | backward hd ht' htotal =>
    cases huleaves with
    | forward he hu' hutotal =>
      unfold nanosPerSecond at he
      omega
    | backward he hu' hutotal =>
      rw [isLE_order_iff ht' hu', htotal, hutotal]
      exact held_mono (by omega)
    | inside he => exact absurd hd (Int.not_le.mpr he)
  | inside hd hd' htseconds htnanos =>
    cases huleaves with
    | forward he hu' hutotal =>
      -- the one stays in the leap second, the other has come to a later second
      have hend : t.seconds < maxSeconds := by
        refine hroom.resolve_right fun hroom => ?_
        unfold room at hroom
        unfold nanosPerSecond at *
        omega
      have hpast : (t.seconds + 1) * 1000000000 ≤ u.total - nanosPerSecond + d * 1000000 := by
        rw [total_eq]
        unfold nanosPerSecond at *
        omega
      have hlater : (t.seconds + 1) * 1000000000 ≤ u'.total := by
        have hhold := held_mono hpast
        rw [← hutotal, total_earliest, total_latest] at hhold
        omega
      rw [isOrdinary_iff] at hu'
      rw [total_eq] at hlater
      rw [isLE_order_iff_lex, htseconds]
      exact .inl (by omega)
    | backward he => exact absurd he (Int.not_le.mpr hd)
    | inside he he' huseconds hunanos =>
      rw [isLE_order_iff_lex, htseconds, huseconds]
      exact .inr ⟨hseconds, by omega⟩

/-- An ordinary timestamp in the last second of the calendar stays before the leap second there. -/
theorem isLE_shift_of_seconds_eq_max (ht : t.IsOrdinary) (hu : ¬ u.IsOrdinary)
    (htend : t.seconds = maxSeconds) (huend : u.seconds = maxSeconds) (d : Int) :
    ((t.shift d).order (u.shift d)).isLE := by
  obtain ⟨ht', htotal⟩ := total_shift ht d
  have huleaves := leavesTo_shift hu d
  have hlt : t.total ≤ u.total := by
    rw [isOrdinary_iff] at ht hu
    rw [total_eq, total_eq]
    omega
  have hheld := held_mono (Int.add_le_add_right hlt (d * 1000000))
  generalize t.shift d = t' at *
  generalize u.shift d = u' at *
  rw [isOrdinary_iff] at hu
  cases huleaves with
  | forward hd hu' hutotal =>
    -- the other has come to the end of the calendar
    rw [isLE_order_iff ht' hu', htotal, hutotal]
    have hlatest := total_latest
    have hu := total_eq u
    unfold nanosPerSecond at *
    omega
  | backward hd hu' hutotal =>
    rw [isLE_order_iff ht' hu', htotal, hutotal]
    exact hheld
  | inside hd hd' huseconds hunanos =>
    rw [isOrdinary_iff] at ht ht'
    rw [total_eq t', total_eq t, total_earliest, total_latest] at htotal
    rw [isLE_order_iff_lex]
    unfold minSeconds at htotal
    unfold maxSeconds at *
    omega

/-- **Leaving alike.** Timestamps in order that leave their seconds alike stay in order. -/
theorem LeaveAlike.isLE_shift (halike : t.LeaveAlike u) (h : (t.order u).isLE) (d : Int) :
    ((t.shift d).order (u.shift d)).isLE := by
  obtain htotal | ⟨hu, hseconds, halike⟩ := halike
  · exact isLE_shift_of_total_le htotal d
  · split at halike
    case isTrue ht =>
      exact isLE_shift_of_seconds_eq_max ht hu halike (hseconds ▸ halike) d
    case isFalse ht =>
      rw [isLE_order_iff_lex] at h
      exact isLE_shift_of_seconds_eq ht hu hseconds halike (by omega) d

/-- A leap second that leaves forward is passed by the ordinary part of its second. -/
theorem not_isLE_shift_forward (ht : t.IsOrdinary) (hu : ¬ u.IsOrdinary)
    (hseconds : t.seconds = u.seconds) (hend : t.seconds < maxSeconds)
    (h : u.totalWithoutExtra < t.total) : ¬ ((t.shift 1000).order (u.shift 1000)).isLE := by
  obtain ⟨ht', htotal⟩ := total_shift ht 1000
  have huleaves := leavesTo_shift hu 1000
  have hmin : minSeconds ≤ t.seconds := t.valid.1
  have hunanos := u.nanos_lt
  rw [totalWithoutExtra, if_neg hu] at h
  rw [isOrdinary_iff] at ht hu
  generalize t.shift 1000 = t' at *
  generalize u.shift 1000 = u' at *
  -- both come to the next second
  rw [held_of_seconds (show minSeconds ≤ t.seconds + 1 by omega) (by omega)
    (by rw [total_eq]; omega) (by rw [total_eq]; omega)] at htotal
  cases huleaves with
  | forward hd hu' hutotal =>
    unfold nanosPerSecond at *
    rw [held_of_seconds (show minSeconds ≤ t.seconds + 1 by omega) (by omega)
      (by rw [total_eq]; omega) (by rw [total_eq]; omega)] at hutotal
    rw [isLE_order_iff ht' hu', htotal, hutotal]
    omega
  | backward hd => omega
  | inside hd hd' =>
    unfold nanosPerSecond at hd'
    omega

/-- A leap second that leaves backward passes the first part of the next second. -/
theorem not_isLE_shift_backward (ht : ¬ t.IsOrdinary) (hu : u.IsOrdinary)
    (hseconds : t.seconds + 1 = u.seconds) (h : u.total < t.total) :
    ¬ ((t.shift (-1000)).order (u.shift (-1000))).isLE := by
  obtain ⟨hu', hutotal⟩ := total_shift hu (-1000)
  have htleaves := leavesTo_shift ht (-1000)
  have hmin : minSeconds ≤ t.seconds := t.valid.1
  have hmax : t.seconds ≤ maxSeconds := t.valid.2.1
  have htnanos := t.nanos_lt
  rw [isOrdinary_iff] at ht hu
  generalize t.shift (-1000) = t' at *
  generalize u.shift (-1000) = u' at *
  -- both come to the second that the leap second belongs to
  rw [held_of_seconds hmin hmax (by rw [total_eq]; omega) (by rw [total_eq]; omega)] at hutotal
  cases htleaves with
  | forward hd =>
    unfold nanosPerSecond at hd
    omega
  | backward hd ht' htotal =>
    rw [held_of_seconds hmin hmax (by rw [total_eq]; omega) (by rw [total_eq]; omega)] at htotal
    rw [isLE_order_iff ht' hu', htotal, hutotal]
    omega
  | inside hd => omega

/-- At the end of the calendar, the first move that brings the later of two timestamps out of the
leap second brings it back in front of the other, which is still inside. -/
theorem not_isLE_shift_room (ht : ¬ t.IsOrdinary) (hu : ¬ u.IsOrdinary)
    (hseconds : t.seconds = u.seconds) (hend : t.seconds = maxSeconds) (h : u.room < t.room) :
    ¬ ((t.shift (u.room + 1)).order (u.shift (u.room + 1))).isLE := by
  have htleaves := leavesTo_shift ht (u.room + 1)
  have huleaves := leavesTo_shift hu (u.room + 1)
  have htnanos := t.nanos_lt
  have hunanos := u.nanos_lt
  have hmin : minSeconds ≤ u.seconds := u.valid.1
  generalize t.shift (u.room + 1) = t' at *
  generalize u.shift (u.room + 1) = u' at *
  rw [isOrdinary_iff] at ht hu
  unfold room at *
  cases htleaves with
  | forward hd =>
    unfold nanosPerSecond at hd
    omega
  | backward hd => omega
  | inside hd hd' htseconds htnanos' =>
    cases huleaves with
    | forward he hu' hutotal =>
      -- the later one is held to the last ordinary moment
      rw [isOrdinary_iff] at hu'
      rw [total_eq u', total_eq u, total_earliest, total_latest] at hutotal
      rw [isLE_order_iff_lex]
      unfold nanosPerSecond at *
      omega
    | backward he => omega
    | inside he he' =>
      unfold nanosPerSecond at he'
      omega

/-- **Which timestamps stay in order.** Timestamps in order stay in order at every distance just
when they leave their seconds alike. A second forward, a second backward and the first move by which
the later one leaves its second tell. -/
theorem isLE_shift_iff (h : (t.order u).isLE) :
    (∀ d : Int64, ((t.shift d.toInt).order (u.shift d.toInt)).isLE) ↔ t.LeaveAlike u := by
  refine ⟨fun hall => ?_, fun halike d => halike.isLE_shift h d.toInt⟩
  have hforward : ((t.shift 1000).order (u.shift 1000)).isLE := hall 1000
  have hbackward : ((t.shift (-1000)).order (u.shift (-1000))).isLE := hall (-1000)
  refine Decidable.byContradiction fun hnot => ?_
  have htotal : u.totalWithoutExtra < t.total := Int.not_le.mp fun htotal => hnot (.inl htotal)
  have htnanos := t.nanos_lt
  have htmax : t.seconds ≤ maxSeconds := t.valid.2.1
  rw [isLE_order_iff_lex] at h
  by_cases ht : t.IsOrdinary <;> by_cases hu : u.IsOrdinary
  · rw [totalWithoutExtra, if_pos hu, total_eq, total_eq] at htotal
    rw [isOrdinary_iff] at ht hu
    omega
  · have hseconds : t.seconds = u.seconds := by
      rw [totalWithoutExtra, if_neg hu, total_eq, total_eq] at htotal
      rw [isOrdinary_iff] at ht hu
      unfold nanosPerSecond at htotal
      omega
    have hend : t.seconds < maxSeconds := by
      refine Int.lt_iff_le_and_ne.mpr ⟨htmax, fun hend => hnot (.inr ⟨hu, hseconds, ?_⟩)⟩
      rwa [if_pos ht]
    exact absurd hforward (not_isLE_shift_forward ht hu hseconds hend htotal)
  · rw [totalWithoutExtra, if_pos hu] at htotal
    refine absurd hbackward (not_isLE_shift_backward ht hu ?_ htotal)
    rw [total_eq, total_eq] at htotal
    rw [isOrdinary_iff] at ht hu
    omega
  · have hseconds : t.seconds = u.seconds := by
      have htleap := seconds_mod_of_not_isOrdinary ht
      have huleap := seconds_mod_of_not_isOrdinary hu
      rw [totalWithoutExtra, if_neg hu, total_eq, total_eq] at htotal
      rw [isOrdinary_iff] at ht hu
      unfold nanosPerSecond at htotal
      omega
    have halike : ¬ (t.seconds < maxSeconds ∨ t.room = u.room) := fun halike =>
      hnot (.inr ⟨hu, hseconds, by rwa [if_neg ht]⟩)
    have hroom : u.room < t.room := by
      unfold room at *
      omega
    have hlast : (Int64.ofNat (u.room + 1)).toInt = u.room + 1 := by
      have hsmall : u.room < 2000 := by
        unfold room
        omega
      exact Int64.toInt_ofNat_of_lt (by omega)
    have hleave := hall (Int64.ofNat (u.room + 1))
    rw [hlast] at hleave
    exact not_isLE_shift_room ht hu hseconds (by omega) hroom hleave

end Timestamp

/-! ## Keys -/

namespace Value

/-- Two values stay in order when they are moved by any one distance. -/
def StayInOrder (v w : Value) : Prop :=
  ∀ d : Int64, ∃ v' w', v.shift (.integer d) = .ok v' ∧ w.shift (.integer d) = .ok w' ∧
    (v'.order w').isLE

/-- **Keys in order.** Two integers in order stay in order at every distance. Two timestamps in
order do so just when they leave their seconds alike. -/
theorem stayInOrder_of_isLE {v w : Value} (h : (v.order w).isLE) :
    (∀ a b, v = integer a → w = integer b → v.StayInOrder w) ∧
      ∀ t u, v = timestamp t → w = timestamp u → (v.StayInOrder w ↔ t.LeaveAlike u) := by
  constructor
  · rintro a b rfl rfl d
    exact ⟨_, _, rfl, rfl, @order_movedBy (.integer a) (.integer b) trivial trivial h d⟩
  · rintro t u rfl rfl
    rw [← Timestamp.isLE_shift_iff h]
    refine ⟨fun hstay d => ?_, fun hall d => ⟨_, _, rfl, rfl, hall d⟩⟩
    obtain ⟨v, w, hv, hw, hle⟩ := hstay d
    cases hv
    cases hw
    exact hle

/-- Half a second into the leap second at the end of 1970's first minute, and one second after the
minute: at every distance they stay in order. -/
theorem stayInOrder_leapSecond_afterNextSecond :
    (timestamp ⟨59, 1500000000, by decide⟩).StayInOrder (timestamp ⟨61, 0, by decide⟩) :=
  ((stayInOrder_of_isLE (by decide)).2 _ _ rfl rfl).mpr (by decide)

/-- **Passing a leap second.** Half a second into a leap second comes before 0.2 s into the next
minute. Half a second earlier, the first is at the start of the leap second, and the other 0.3 s
before that. -/
theorem not_isLE_shift_behind_leapSecond :
    ∃ t u t' u' : Timestamp,
      t.seconds = 59 ∧ t.nanos = 1500000000 ∧ u.seconds = 60 ∧ u.nanos = 200000000 ∧
      t'.seconds = 59 ∧ t'.nanos = 1000000000 ∧ u'.seconds = 59 ∧ u'.nanos = 700000000 ∧
      ((timestamp t).order (timestamp u)).isLE ∧
      (timestamp t).shift (.integer (-500)) = .ok (timestamp t') ∧
      (timestamp u).shift (.integer (-500)) = .ok (timestamp u') ∧
      ¬ ((timestamp t').order (timestamp u')).isLE := by
  have hshift (t : Timestamp) :
      (timestamp t).shift (.integer (-500)) = .ok (timestamp (t.shift (-500))) := rfl
  refine ⟨⟨59, 1500000000, by decide⟩, ⟨60, 200000000, by decide⟩, _, _, rfl, rfl, rfl, rfl,
    ?_, ?_, ?_, ?_, by decide, hshift _, hshift _, ?_⟩
  all_goals decide +kernel

end Value

end SqlWindow
