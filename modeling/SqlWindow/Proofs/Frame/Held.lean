import SqlWindow.Frame.Held
import SqlWindow.Proofs.Frame.Reads

set_option autoImplicit false

/-! # The rows that are held

What a tally holds is said by a predicate `H`: `H a b t` means that `t` holds the rows from
position `a` up to but without `b`. Which predicate it is does not matter to a frame; it has to
follow the steps of the tally (`Tally.Follows`). A slide then leaves the rows of the new window
held, whether it gives rows back one by one or starts anew.
-/

namespace SqlWindow

variable {η : Type} {rows : List Row}

theorem Held.reads_onTally {h : Held η} {x : Action η Unit} {u : η}
    (hx : x h.tally = .ok () u) : Reads rows (onTally x) h () { h with tally := u } :=
  .onFirst (Action.onPart_of_ok hx)

variable [Tally η]

/-- A predicate on tallies that rows may come in to, at the end. -/
def Tally.TakesIn (rows : List Row) (H : Nat → Nat → η → Prop) : Prop :=
  ∀ a b t row, H a b t → a ≤ b → rows[b]? = some row →
    ∃ u, Tally.add row t = .ok () u ∧ H a (b + 1) u

/-- A predicate on tallies that rows may go out of, at the front. The last row is never taken
back. -/
def Tally.GivesBack (rows : List Row) (H : Nat → Nat → η → Prop) : Prop :=
  ∀ a b t row, H a b t → a + 1 < b → b ≤ rows.length → rows[a]? = some row →
    ∃ u, Tally.remove row t = .ok () u ∧ H (a + 1) b u

/-- A predicate on tallies that follows rows coming in at the end and, where rows can be taken
back, rows going out at the front. -/
structure Tally.Follows (rows : List Row) (canRemove : Prop) (H : Nat → Nat → η → Prop) :
    Prop where
  clear : ∀ {a b t}, H a b t → ∀ c, H c c (Tally.clear t)
  /-- With no row held any position is as good as another. -/
  move : ∀ {a t}, H a a t → ∀ c, H c c t
  add : ∀ {a b t row}, H a b t → a ≤ b → rows[b]? = some row →
    ∃ u, Tally.add row t = .ok () u ∧ H a (b + 1) u
  remove : ∀ {a b t row}, canRemove → H a b t → a + 1 < b → b ≤ rows.length →
    rows[a]? = some row → ∃ u, Tally.remove row t = .ok () u ∧ H (a + 1) b u

theorem Tally.Follows.takesIn {canRemove : Prop} {H : Nat → Nat → η → Prop}
    (h : Tally.Follows rows canRemove H) : Tally.TakesIn rows H :=
  fun _ _ _ _ ht hab hrow => h.add ht hab hrow

theorem Tally.Follows.givesBack {canRemove : Prop} {H : Nat → Nat → η → Prop}
    (h : Tally.Follows rows canRemove H) (hcan : canRemove) : Tally.GivesBack rows H :=
  fun _ _ _ _ ht hlt hb hrow => h.remove hcan ht hlt hb hrow

/-- Where fewer rows go out, more predicates follow. -/
theorem Tally.Follows.imp {canRemove canRemove' : Prop} {H : Nat → Nat → η → Prop}
    (h : Tally.Follows rows canRemove H) (hcan : canRemove' → canRemove) :
    Tally.Follows rows canRemove' H where
  clear := h.clear
  move := h.move
  add := h.add
  remove hcan' := h.remove (hcan hcan')

namespace Held

variable {canRemove : Prop} {H : Nat → Nat → η → Prop}

/-- The run is the one from `lo` up to but without `hi`, and the tally holds its rows. -/
structure Holds (H : Nat → Nat → η → Prop) (lo hi : Nat) (h : Held η) : Prop where
  start : h.start = lo
  stop : h.stop = hi
  le : lo ≤ hi
  tally : H lo hi h.tally

variable {h : Held η} {lo hi a b : Nat}

theorem exists_dropRow (hback : Tally.GivesBack rows H) (hh : h.Holds H a b) (hlt : a + 1 < b)
    (hb : b ≤ rows.length) : ∃ h', Reads rows dropRow h () h' ∧ h'.Holds H (a + 1) b := by
  have hrow : rows[h.start]? = some rows[a] := by
    rw [hh.start]
    exact List.getElem?_eq_getElem (by omega)
  obtain ⟨u, hremove, hu⟩ := hback a b h.tally _ hh.tally hlt hb (hh.start ▸ hrow)
  refine ⟨⟨u, h.start + 1, h.stop⟩, ?_, by rw [hh.start], hh.stop, by omega, hu⟩
  exact .get fun s _ => .bind (.row hrow) (.bind (reads_onTally hremove) (.modify fun _ => rfl))

theorem exists_takeRow (hin : Tally.TakesIn rows H) (hh : h.Holds H a b) (hb : b < rows.length) :
    ∃ h', Reads rows takeRow h () h' ∧ h'.Holds H a (b + 1) := by
  have hrow : rows[h.stop]? = some rows[b] := by
    rw [hh.stop]
    exact List.getElem?_eq_getElem hb
  obtain ⟨u, hadd, hu⟩ := hin a b h.tally _ hh.tally hh.le (hh.stop ▸ hrow)
  have hle := hh.le
  refine ⟨⟨u, h.start, h.stop + 1⟩, ?_, hh.start, by rw [hh.stop], by omega, hu⟩
  exact .get fun s _ => .bind (.row hrow) (.bind (reads_onTally hadd) (.modify fun _ => rfl))

theorem exists_dropRows (hback : Tally.GivesBack rows H) (count : Nat) (hh : h.Holds H a b)
    (hlt : a + count < b) (hb : b ≤ rows.length) :
    ∃ h', Reads rows (dropRows count) h () h' ∧ h'.Holds H (a + count) b := by
  induction count generalizing h a with
  | zero => exact ⟨h, .pure () h, hh⟩
  | succ count ih =>
    obtain ⟨h₁, hread, hh₁⟩ := exists_dropRow hback hh (by omega) hb
    obtain ⟨h₂, hreads, hh₂⟩ := ih hh₁ (by omega)
    exact ⟨h₂, hread.bind hreads, by rwa [Nat.add_right_comm] at hh₂⟩

theorem exists_takeRows (hin : Tally.TakesIn rows H) (count : Nat) (hh : h.Holds H a b)
    (hb : b + count ≤ rows.length) :
    ∃ h', Reads rows (takeRows count) h () h' ∧ h'.Holds H a (b + count) := by
  induction count generalizing h b with
  | zero => exact ⟨h, .pure () h, hh⟩
  | succ count ih =>
    obtain ⟨h₁, hread, hh₁⟩ := exists_takeRow hin hh (by omega)
    obtain ⟨h₂, hreads, hh₂⟩ := ih hh₁ (by omega)
    exact ⟨h₂, hread.bind hreads, by rwa [Nat.add_right_comm] at hh₂⟩

theorem holds_restart (hH : Tally.Follows rows canRemove H) (hh : h.Holds H a b) (lo : Nat) :
    (h.restart lo).Holds H lo lo := by
  refine ⟨rfl, rfl, Nat.le_refl lo, ?_⟩
  show H lo lo (if h.start < h.stop then Tally.clear h.tally else h.tally)
  by_cases hempty : h.start < h.stop
  · rw [if_pos hempty]
    exact hH.clear hh.tally lo
  · rw [if_neg hempty]
    have hle := hh.le
    have hab : a = b := by
      rw [hh.start, hh.stop] at hempty
      omega
    subst hab
    exact hH.move hh.tally lo

/-- **Sliding in two phases.** What is known of the tally while rows go out may differ from what
is known while rows come in; a slide hands the first on to the second where the window keeps some
of its rows, and otherwise starts anew. -/
theorem exists_slide_of {Out In : Nat → Nat → η → Prop} (hh : h.Holds Out a b)
    (hback : lo = a ∨ Tally.GivesBack rows Out) (hin : Tally.TakesIn rows In)
    (hrestart : b ≤ lo → In lo lo (h.restart lo).tally)
    (hkeep : ∀ t, lo < b → Out lo b t → In lo b t) (hlo : a ≤ lo) (hhi : b ≤ hi) (hle : lo ≤ hi)
    (hlength : hi ≤ rows.length) :
    ∃ h', Reads rows (slide lo hi) h () h' ∧ h'.Holds In lo hi := by
  -- First the front moves to `lo`, then the end to `hi`.
  have hfront : ∃ h₁ b₁, Reads rows (if h.stop ≤ lo then modify fun s => (s.1.restart lo, s.2)
      else dropRows (lo - h.start)) h () h₁ ∧ h₁.Holds In lo b₁ ∧ b₁ ≤ hi := by
    by_cases hstop : h.stop ≤ lo
    · rw [if_pos hstop]
      exact ⟨h.restart lo, lo, .modify fun _ => rfl,
        ⟨rfl, rfl, Nat.le_refl lo, hrestart (hh.stop ▸ hstop)⟩, hle⟩
    · rw [if_neg hstop, hh.start]
      rw [hh.stop, Nat.not_le] at hstop
      have hdrop : ∃ h₁, Reads rows (dropRows (lo - a)) h () h₁ ∧ h₁.Holds Out lo b := by
        rcases hback with rfl | hback
        · rw [Nat.sub_self]
          exact ⟨h, .pure () h, hh⟩
        · have hdropped := exists_dropRows hback (lo - a) hh (by omega) (by omega)
          rwa [Nat.add_sub_cancel' hlo] at hdropped
      obtain ⟨h₁, hread, hh₁⟩ := hdrop
      exact ⟨h₁, b, hread, ⟨hh₁.start, hh₁.stop, hh₁.le, hkeep _ hstop hh₁.tally⟩, hhi⟩
  obtain ⟨h₁, b₁, hread, hh₁, hb₁⟩ := hfront
  obtain ⟨h₂, hreads, hh₂⟩ := exists_takeRows hin (hi - b₁) hh₁ (by omega)
  rw [Nat.add_sub_cancel' hb₁] at hh₂
  refine ⟨h₂, .get fun s _ => ?_, hh₂⟩
  have hend : Reads rows (do takeRows (hi - (← get).1.stop)) h₁ () h₂ :=
    .get fun s _ => by rw [hh₁.stop]; exact hreads
  by_cases hstop : h.stop ≤ lo
  · rw [if_pos hstop] at hread ⊢
    exact hread.bind hend
  · rw [if_neg hstop] at hread ⊢
    exact hread.bind hend

/-- **Sliding.** Between two windows that follow each other a slide succeeds, and the rows of the
new window are held. Rows are only taken back where the window has lost some. -/
theorem exists_slide (hH : Tally.Follows rows canRemove H) (hh : h.Holds H a b)
    (hcan : lo = a ∨ canRemove) (hlo : a ≤ lo) (hhi : b ≤ hi) (hle : lo ≤ hi)
    (hlength : hi ≤ rows.length) :
    ∃ h', Reads rows (slide lo hi) h () h' ∧ h'.Holds H lo hi :=
  exists_slide_of hh (hcan.imp_right hH.givesBack) hH.takesIn
    (fun _ => (holds_restart hH hh lo).tally) (fun _ _ ht => ht) hlo hhi hle hlength

/-- **A run that stays.** Sliding to where the run is already changes nothing; in particular a
tally that holds no row does not start anew. -/
theorem reads_slide_self (hle : h.start ≤ h.stop) :
    Reads rows (slide h.start h.stop) h () h := by
  have hend : Reads rows (do takeRows (h.stop - (← get).1.stop)) h () h :=
    .get fun s _ => by rw [Nat.sub_self]; exact .pure () h
  refine .get fun s _ => ?_
  by_cases hstop : h.stop ≤ h.start
  · have hrestart : h.restart h.start = h := by
      rw [restart, if_neg (Nat.not_lt.mpr hstop)]
      obtain ⟨tally, start, stop⟩ := h
      exact congrArg (Held.mk tally start) (Nat.le_antisymm hle hstop)
    rw [if_pos hstop]
    exact .bind (.modify fun store => congrArg (·, store) hrestart) hend
  · rw [if_neg hstop, Nat.sub_self]
    exact .bind (.pure () h) hend

end Held

end SqlWindow
