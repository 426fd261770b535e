import SqlWindow.Proofs.Frame.KeyDistance
import SqlWindow.Proofs.Frame.Obeys
import SqlWindow.Proofs.Frame.Recorded
import SqlWindow.Proofs.Frame.RowDistance

set_option autoImplicit false

/-! # The calls that a tally receives

What a sliding frame asks of its tally while it answers the rows of a partition. Between two
windows it moves its run of rows by single moves, each with one call, up to the first call that
fails; `Tally.Attempts` says of a predicate that it goes along with these moves. Both frames are
walked through with it, and for a recorded tally the predicate is that the calls on record make a
way to the window.
-/

namespace SqlWindow

open SqlWindow.Action (Ends Meets)

/-! ## Tallies that may fail -/

section

variable {η : Type} [Tally η] {rows : List Row} {s₀ : RowStore}

/-- A predicate on tallies that follows rows coming in at the end and going out at the front, and
the run being given up for one behind it. A tally that fails is left with `E`. -/
structure Tally.Attempts (rows : List Row) (H : Nat → Nat → η → Prop) (E : η → Prop) : Prop where
  giveUp : ∀ {a b t}, H a b t → a ≤ b → ∀ c, b ≤ c → H c c (if a < b then Tally.clear t else t)
  add : ∀ {a b t row}, H a b t → rows[b]? = some row →
    Ends (fun _ => H a (b + 1)) (fun _ => E) (Tally.add row t)
  remove : ∀ {a b t row}, H a b t → a + 1 < b → rows[a]? = some row →
    Ends (fun _ => H (a + 1) b) (fun _ => E) (Tally.remove row t)

/-- A row of the partition is read beside the store. -/
theorem Alongside.meets_row {φ : Type} {G : φ → Prop} {E : Error → φ × RowStore → Prop}
    {index : Nat} {row : Row} (hrow : rows[index]? = some row) :
    Meets (Alongside rows s₀ G) (fun r s => r = row ∧ Alongside rows s₀ G s) E
      (Action.onSecond (RowStore.row index)) := by
  rintro ⟨f, s⟩ ⟨hf, hs, hsetup⟩
  obtain ⟨t, hread, ht, hst⟩ := @Reads.row _ _ f _ _ hrow s hs
  rw [hread]
  exact .ok ⟨rfl, hf, ht, hsetup.trans hst⟩

namespace Held

variable {H : Nat → Nat → η → Prop} {E : η → Prop} {a b lo hi : Nat}

omit [Tally η] in
theorem meets_onTally {x : Action η Unit} {P Q : Held η → Prop} {T U : η → Prop}
    (hx : Meets T (fun _ => U) (fun _ => E) x) (hpart : ∀ h, P h → T h.tally)
    (hwith : ∀ h t, P h → U t → Q { h with tally := t }) :
    Meets (Alongside rows s₀ P) (fun _ => Alongside rows s₀ Q) (fun _ s => E s.1.tally)
      (onTally x) := by
  have hheld : Meets P (fun _ => Q) (fun _ h => E h.tally)
      (Action.onPart tally (fun h t => { h with tally := t }) x) :=
    hx.onPart hpart (fun h _ t hh ht => hwith h t hh ht) fun _ _ _ _ ht => ht
  exact hheld.onPart (fun _ hs => hs.1) (fun _ _ _ hs hh => ⟨hh, hs.2⟩) fun _ _ _ _ hh => hh

theorem meets_takeRow (hH : Tally.Attempts rows H E) (hb : b < rows.length) :
    Meets (Alongside rows s₀ (Holds H a b)) (fun _ => Alongside rows s₀ (Holds H a (b + 1)))
      (fun _ s => E s.1.tally) takeRow := by
  have hrow : rows[b]? = some rows[b] := List.getElem?_eq_getElem hb
  refine .get fun s hs => ?_
  rw [hs.1.stop]
  refine .bind (Alongside.meets_row hrow) fun row => .assume ?_
  rintro rfl
  refine .bind (meets_onTally (T := H a b) (U := H a (b + 1)) (Q := fun h => h.start = a ∧
    h.stop = b ∧ a ≤ b ∧ H a (b + 1) h.tally) (fun t ht => hH.add ht hrow) (fun h hh => hh.tally)
    fun h t hh ht => ⟨hh.start, hh.stop, hh.le, ht⟩) fun _ => .modify ?_
  rintro ⟨h, s⟩ ⟨⟨hstart, hstop, hle, ht⟩, hs⟩
  exact ⟨⟨hstart, congrArg Nat.succ hstop, Nat.le_succ_of_le hle, ht⟩, hs⟩

theorem meets_dropRow (hH : Tally.Attempts rows H E) (hlt : a + 1 < b) (hb : b ≤ rows.length) :
    Meets (Alongside rows s₀ (Holds H a b)) (fun _ => Alongside rows s₀ (Holds H (a + 1) b))
      (fun _ s => E s.1.tally) dropRow := by
  have hrow : rows[a]? = some rows[a] := List.getElem?_eq_getElem (by omega)
  refine .get fun s hs => ?_
  rw [hs.1.start]
  refine .bind (Alongside.meets_row hrow) fun row => .assume ?_
  rintro rfl
  refine .bind (meets_onTally (T := H a b) (U := H (a + 1) b) (Q := fun h => h.start = a ∧
    h.stop = b ∧ H (a + 1) b h.tally) (fun t ht => hH.remove ht hlt hrow) (fun h hh => hh.tally)
    fun h t hh ht => ⟨hh.start, hh.stop, ht⟩) fun _ => .modify ?_
  rintro ⟨h, s⟩ ⟨⟨hstart, hstop, ht⟩, hs⟩
  exact ⟨⟨congrArg Nat.succ hstart, hstop, Nat.le_of_lt hlt, ht⟩, hs⟩

theorem meets_takeRows_from (hH : Tally.Attempts rows H E) (count : Nat)
    (hb : b + count ≤ rows.length) :
    Meets (Alongside rows s₀ (Holds H a b)) (fun _ => Alongside rows s₀ (Holds H a (b + count)))
      (fun _ s => E s.1.tally) (takeRows count) := by
  induction count generalizing b with
  | zero => exact .pure fun _ hs => hs
  | succ count ih =>
    have hrest := @ih (b + 1) (by omega)
    rw [Nat.add_right_comm] at hrest
    exact .bind (meets_takeRow hH (by omega)) fun _ => hrest

theorem meets_dropRows_from (hH : Tally.Attempts rows H E) (count : Nat) (hlt : a + count < b)
    (hb : b ≤ rows.length) :
    Meets (Alongside rows s₀ (Holds H a b)) (fun _ => Alongside rows s₀ (Holds H (a + count) b))
      (fun _ s => E s.1.tally) (dropRows count) := by
  induction count generalizing a with
  | zero => exact .pure fun _ hs => hs
  | succ count ih =>
    have hrest := @ih (a + 1) (by omega)
    rw [Nat.add_right_comm] at hrest
    exact .bind (meets_dropRow hH (by omega) hb) fun _ => hrest

/-- **Sliding.** From the rows of one window a slide comes to those of a window that is not behind
it, or to a tally that has failed. -/
theorem meets_slide_between (hH : Tally.Attempts rows H E) (hlo : a ≤ lo) (hhi : b ≤ hi)
    (hle : lo ≤ hi) (hlength : hi ≤ rows.length) :
    Meets (Alongside rows s₀ (Holds H a b)) (fun _ => Alongside rows s₀ (Holds H lo hi))
      (fun _ s => E s.1.tally) (slide lo hi) := by
  -- whatever run there is behind the first part of a slide, the rows up to `hi` come in
  have hend (c : Nat) (hc : c ≤ hi) :
      Meets (Alongside rows s₀ (Holds H lo c)) (fun _ => Alongside rows s₀ (Holds H lo hi))
        (fun _ s => E s.1.tally)
        (do takeRows (hi - (← get).1.stop) : Action (Held η × RowStore) Unit) := by
    refine .get fun s hs => ?_
    have hrest := @meets_takeRows_from _ _ _ s₀ _ _ lo c hH (hi - c) (by omega)
    rw [Nat.add_sub_cancel' hc] at hrest
    rwa [hs.1.stop]
  refine .get fun s hs => ?_
  dsimp only
  rw [hs.1.start, hs.1.stop]
  split
  case isTrue happart =>
    refine .bind (.modify ?_) fun _ => hend lo hle
    rintro ⟨h, s⟩ ⟨hh, hs⟩
    refine ⟨⟨rfl, rfl, Nat.le_refl lo, ?_⟩, hs⟩
    show H lo lo (if h.start < h.stop then Tally.clear h.tally else h.tally)
    rw [hh.start, hh.stop]
    exact hH.giveUp hh.tally hh.le lo happart
  case isFalse happart =>
    have hdrop := @meets_dropRows_from _ _ _ s₀ _ _ a b hH (lo - a) (by omega) (by omega)
    rw [Nat.add_sub_cancel' hlo] at hdrop
    exact .bind hdrop fun _ => hend b hhi

end Held

namespace RowDistance

variable {H : Nat → Nat → η → Prop} {E : η → Prop} {f₀ : RowDistance η}

/-- **One row.** From the window of the row before the frame comes to that of row `i`. -/
theorem meets_process_reached (hH : Tally.Attempts rows H E) (hlength : f₀.length = rows.length)
    (i : Nat) :
    Meets (Alongside rows s₀ (Reached (fun _ => H) f₀ i))
      (fun v s => v = Tally.values s.1.held.tally ∧
        Alongside rows s₀ (Reached (fun _ => H) f₀ (i + 1)) s)
      (fun _ s => E s.1.held.tally) (process i) := by
  refine .get fun s hs => ?_
  obtain ⟨held, heq, -⟩ := hs.1
  have hwindow : s.1.window i = f₀.window i := by rw [heq]; rfl
  rw [hwindow]
  have hslide := @Held.meets_slide_between _ _ _ s₀ _ _ _ _ _ _ hH (windowBefore_fst_le f₀ i)
    (windowBefore_snd_le f₀ i) (window_le f₀ i) (hlength ▸ window_snd_le f₀ i)
  refine .bind (R := fun _ => Alongside rows s₀ (Reached (fun _ => H) f₀ (i + 1))) ?_
    fun _ _ ht => .ok ⟨rfl, ht⟩
  refine hslide.onPart (fun t ht => ?_) (fun t _ h ht hh => ?_) fun _ _ _ _ hh => hh
  · obtain ⟨held, heq, hheld⟩ := ht.1
    rw [heq]
    exact ⟨hheld, ht.2⟩
  · obtain ⟨held, heq, -⟩ := ht.1
    rw [heq]
    exact ⟨⟨h.1, rfl, hh.1⟩, hh.2⟩

end RowDistance

namespace KeyDistance

variable {H : Nat → Nat → η → Prop} {E : η → Prop} {f₀ : KeyDistance η} {current : Row}

/-- An edge of the frame cannot be evaluated for some row. -/
def EdgeFails (f₀ : KeyDistance η) (rows : List Row) (current : Row) (e : Error) : Prop :=
  ∃ candidate ∈ rows, f₀.lower.admits current candidate = .error e ∨
    f₀.upper.admits current candidate = .error e

/-- The frame is `f₀` with its edges at `lo` and `hi` and the run of rows `held`. An unbounded lower
edge is at the first row. -/
def IsAt (f₀ : KeyDistance η) (held : Held η) (lo hi : Nat) (f : KeyDistance η) : Prop :=
  f = { f₀ with held, lo, hi } ∧ (f₀.lower.place = .unbounded → lo = 0)

omit [Tally η] in
theorem meets_seekLower_from {E : Error → KeyDistance η × RowStore → Prop} {held : Held η}
    {lo hi : Nat} (hE : ∀ e s, f₀.EdgeFails rows current e → E e s) (steps : Nat)
    (hsteps : lo + steps = rows.length) :
    Meets (Alongside rows s₀ (IsAt f₀ held lo hi))
      (fun _ => Alongside rows s₀ fun f => ∃ lo', lo ≤ lo' ∧ lo' ≤ rows.length ∧
        IsAt f₀ held lo' hi f)
      E (seekLower current steps) := by
  induction steps generalizing lo with
  | zero => exact .pure fun s hs => ⟨⟨lo, Nat.le_refl lo, by omega, hs.1⟩, hs.2⟩
  | succ steps ih =>
    have hrow : rows[lo]? = some rows[lo] := List.getElem?_eq_getElem (by omega)
    refine .get fun s hs => ?_
    obtain ⟨heq, hunbounded⟩ := hs.1
    rw [heq]
    refine .bind (Alongside.meets_row hrow) fun candidate => .assume ?_
    rintro rfl
    refine .bind (R := fun admitted s => f₀.lower.admits current rows[lo] = .ok admitted ∧
      Alongside rows s₀ (IsAt f₀ held lo hi) s) (.ofExcept (fun _ _ hok hs => ⟨hok, hs⟩)
        fun e s herror _ => hE e s ⟨_, List.getElem_mem _, .inl herror⟩) fun admitted =>
      .assume fun hadmits => ?_
    cases admitted with
    | true => exact .pure fun s hs => ⟨⟨lo, Nat.le_refl lo, by omega, hs.1⟩, hs.2⟩
    | false =>
      refine .bind (.modify (Q := fun _ => Alongside rows s₀ (IsAt f₀ held (lo + 1) hi)) ?_)
        fun _ => (ih (by omega)).imp (fun _ hs => hs) ?_ fun _ _ he => he
      · rintro ⟨f, s⟩ ⟨⟨rfl, hunbounded⟩, hs⟩
        refine ⟨⟨rfl, fun hplace => ?_⟩, hs⟩
        rw [Edge.admits_of_place_eq _ _ hplace] at hadmits
        cases hadmits
      · rintro _ s ⟨⟨lo', hle, hlo', hat⟩, hs⟩
        exact ⟨⟨lo', by omega, hlo', hat⟩, hs⟩

omit [Tally η] in
theorem meets_seekUpper_from {E : Error → KeyDistance η × RowStore → Prop} {held : Held η}
    {lo hi : Nat} (hE : ∀ e s, f₀.EdgeFails rows current e → E e s) (steps : Nat)
    (hsteps : hi + steps = rows.length) :
    Meets (Alongside rows s₀ (IsAt f₀ held lo hi))
      (fun _ => Alongside rows s₀ fun f => ∃ hi', hi ≤ hi' ∧ hi' ≤ rows.length ∧
        IsAt f₀ held lo hi' f)
      E (seekUpper current steps) := by
  induction steps generalizing hi with
  | zero => exact .pure fun s hs => ⟨⟨hi, Nat.le_refl hi, by omega, hs.1⟩, hs.2⟩
  | succ steps ih =>
    have hrow : rows[hi]? = some rows[hi] := List.getElem?_eq_getElem (by omega)
    refine .get fun s hs => ?_
    obtain ⟨heq, hunbounded⟩ := hs.1
    rw [heq]
    refine .bind (Alongside.meets_row hrow) fun candidate => .assume ?_
    rintro rfl
    refine .bind (R := fun _ => Alongside rows s₀ (IsAt f₀ held lo hi)) (.ofExcept
      (fun _ _ _ hs => hs) fun e s herror _ => hE e s ⟨_, List.getElem_mem _, .inr herror⟩)
      fun admitted => ?_
    cases admitted with
    | false => exact .pure fun s hs => ⟨⟨hi, Nat.le_refl hi, by omega, hs.1⟩, hs.2⟩
    | true =>
      refine .bind (.modify (Q := fun _ => Alongside rows s₀ (IsAt f₀ held lo (hi + 1))) ?_)
        fun _ => (ih (by omega)).imp (fun _ hs => hs) ?_ fun _ _ he => he
      · rintro ⟨f, s⟩ ⟨⟨rfl, hunbounded⟩, hs⟩
        exact ⟨⟨rfl, hunbounded⟩, hs⟩
      · rintro _ s ⟨⟨hi', hle, hhi', hat⟩, hs⟩
        exact ⟨⟨hi', by omega, hhi', hat⟩, hs⟩

/-- The frame `f₀` between two rows: its edges are somewhere in the partition, and its tally has
come to the rows between them. -/
def Stands (H : Nat → Nat → η → Prop) (f₀ : KeyDistance η) (rows : List Row) (f : KeyDistance η) :
    Prop :=
  ∃ held lo hi, IsAt f₀ held lo hi f ∧ held.Holds H lo (max lo hi) ∧ lo ≤ rows.length ∧
    hi ≤ rows.length

/-- **One row.** From where they stand the edges move forward, and the tally comes to the rows
between them. -/
theorem meets_process_stands (hH : Tally.Attempts rows H E) (hlength : f₀.length = rows.length) :
    Meets (Alongside rows s₀ (Stands H f₀ rows))
      (fun v s => v = Tally.values s.1.held.tally ∧ Alongside rows s₀ (Stands H f₀ rows) s)
      (fun e s => f₀.EdgeFails rows current e ∨ E s.1.held.tally) (process current) := by
  rintro s₁ ⟨⟨held, lo, hi, hat, hheld, hlo, hhi⟩, hs₁⟩
  refine (?_ : Meets (Alongside rows s₀ (IsAt f₀ held lo hi)) _ _ _) s₁ ⟨hat, hs₁⟩
  refine .get fun s hs => ?_
  obtain ⟨heq, -⟩ := hs.1
  rw [heq]
  refine .bind (meets_seekLower_from (fun _ _ he => .inl he) _
    (show lo + (f₀.length - lo) = rows.length by omega)) fun _ => ?_
  -- the two edges are sought one after the other, each forward from its place
  refine .bind (R := fun _ => Alongside rows s₀ fun f => ∃ lo' hi', lo ≤ lo' ∧ lo' ≤ rows.length ∧
    hi ≤ hi' ∧ hi' ≤ rows.length ∧ IsAt f₀ held lo' hi' f) ?_ fun _ => ?_
  · rintro s ⟨⟨lo', hlole, hlo', hat⟩, hs⟩
    refine (meets_seekUpper_from (E := fun e s => f₀.EdgeFails rows current e ∨ E s.1.held.tally)
      (fun _ _ he => .inl he) (f₀.length - hi) (by omega) s ⟨hat, hs⟩).imp ?_ fun _ _ he => he
    rintro _ t ⟨⟨hi', hhile, hhi', hat⟩, ht⟩
    exact ⟨⟨lo', hi', hlole, hlo', hhile, hhi', hat⟩, ht⟩
  · rintro s ⟨⟨lo', hi', hlole, hlo', hhile, hhi', hat⟩, hs⟩
    refine (?_ : Meets (Alongside rows s₀ (IsAt f₀ held lo' hi')) _ _ _) s ⟨hat, hs⟩
    refine .get fun s hs => ?_
    obtain ⟨heq, -⟩ := hs.1
    rw [heq]
    have hslide := @Held.meets_slide_between _ _ _ s₀ _ _ _ _ lo' (max lo' hi') hH hlole
      (show max lo hi ≤ max lo' hi' by omega) (Nat.le_max_left _ _) (by omega)
    refine .bind (R := fun _ => Alongside rows s₀ (Stands H f₀ rows)) ?_
      fun _ _ ht => .ok ⟨rfl, ht⟩
    refine hslide.onPart (fun t ht => ?_) (fun t _ h ht hh => ?_) fun _ _ _ _ hh => .inr hh
    · rw [ht.1.1]
      exact ⟨hheld, ht.2⟩
    · rw [ht.1.1]
      exact ⟨⟨h.1, lo', hi', ⟨rfl, ht.1.2⟩, hh.1, hlo', hhi'⟩, hh.2⟩

end KeyDistance

end

/-! ## What a tally receives -/

/-- A frame has answered the rows in front of row `i`, one after the other from the first on. -/
inductive Answered {φ : Type} (step : Nat → Row → Action (φ × RowStore) Row) (rows : List Row)
    (s₀ : φ × RowStore) : Nat → φ × RowStore → Prop where
  | start : Answered step rows s₀ 0 s₀
  | next {i : Nat} {s t : φ × RowStore} {row v : Row} (h : Answered step rows s₀ i s)
    (hrow : rows[i]? = some row) (hstep : step i row s = .ok v t) : Answered step rows s₀ (i + 1) t

namespace Recorded

variable {η : Type} {rows : List Row}

/-- Behind the calls `earlier` no call has failed, and those that have followed make the moves of a
run of rows up to the one from `lo` up to but without `hi`. -/
def HasMoved (earlier : List TallyCall) (rows : List Row) (lo hi : Nat) (r : Recorded η) : Prop :=
  r.failed = false ∧ ∃ moves later, r.calls = earlier ++ later ∧
    moves.map (Move.call? rows) = later.map some ∧ Moved moves lo hi

/-- Behind the preparation for a partition the calls make the moves of a run of rows, which has come
to the rows from `lo` up to but without `hi`; `r₀` is the tally before it was prepared. -/
def Received (r₀ : Recorded η) (rows : List Row) (lo hi : Nat) (r : Recorded η) : Prop :=
  ∃ moves later, r.calls = r₀.calls ++ .clear :: .setWindowSize rows.length :: later ∧
    moves.map (Move.call? rows) = later.map some ∧ IsHistory moves lo hi

/-- Behind the preparation for a partition all calls are for rows coming in. -/
def OnlyAdds (r₀ : Recorded η) (rows : List Row) (r : Recorded η) : Prop :=
  ∃ later, r.calls = r₀.calls ++ .clear :: .setWindowSize rows.length :: later ∧
    ∀ call ∈ later, ∃ row, call = .add row

variable {earlier : List TallyCall} {lo hi : Nat} {r : Recorded η}

/-- One call more, for one move more. -/
theorem HasMoved.concat {lo' hi' : Nat} {t : η} {call : TallyCall}
    (h : HasMoved earlier rows lo hi r) (move : Move) (hcall : move.call? rows = some call)
    (hmoved : ∀ moves, Moved moves lo hi → Moved (moves ++ [move]) lo' hi') :
    HasMoved earlier rows lo' hi' (⟨t, r.calls ++ [call], r.failed⟩ : Recorded η) := by
  obtain ⟨hfailed, moves, later, hcalls, hmap, hmoves⟩ := h
  refine ⟨hfailed, moves ++ [move], later ++ [call], ?_, ?_, hmoved moves hmoves⟩
  · rw [hcalls, List.append_assoc]
  · rw [List.map_append, List.map_append, hmap, List.map_singleton, List.map_singleton, hcall]

theorem ends_record {lo' hi' : Nat} {x : Action η Unit} {call : TallyCall}
    (h : HasMoved earlier rows lo hi r) (move : Move) (hcall : move.call? rows = some call)
    (hmoved : ∀ moves, Moved moves lo hi → Moved (moves ++ [move]) lo' hi') :
    Ends (fun _ => HasMoved earlier rows lo' hi') (fun _ r => r.failed = true)
      (record call x r) := by
  unfold record
  cases x r.tally with
  | ok u t => exact .ok (h.concat move hcall hmoved)
  | error e t => exact .error rfl

variable [Tally η]

/-- **One call for each move**, unless a call fails. -/
theorem attempts_hasMoved (earlier : List TallyCall) (rows : List Row) :
    Tally.Attempts rows (@HasMoved η earlier rows) fun r => r.failed = true where
  giveUp {a b r} h hle c hc := by
    by_cases hlt : a < b
    · rw [if_pos hlt]
      exact h.concat .startAnew rfl fun moves hmoves => hmoves.startAnew hlt hc
    · rw [if_neg hlt]
      obtain rfl : a = b := by omega
      obtain ⟨hfailed, moves, later, hcalls, hmap, hmoves⟩ := h
      exact ⟨hfailed, moves, later, hcalls, hmap, hmoves.skip hc⟩
  add {a b r row} h hrow :=
    ends_record h (.takeIn b) (by rw [Move.call?, hrow]; rfl) fun _ hmoves => hmoves.takeIn
  remove {a b r row} h hlt hrow :=
    ends_record h (.giveBack a) (by rw [Move.call?, hrow]; rfl)
      fun _ hmoves => hmoves.giveBack hlt

/-- A tally that is prepared for a partition has moved nowhere. -/
theorem holds_prepare {h : Held (Recorded η)} (hfailed : h.tally.failed = false) :
    (h.prepare rows.length).Holds
      (HasMoved (h.tally.calls ++ [.clear, .setWindowSize rows.length]) rows) 0 0 := by
  refine ⟨rfl, rfl, Nat.le_refl 0, hfailed, [], [], ?_, rfl, .start⟩
  show (h.tally.calls ++ [.clear]) ++ [.setWindowSize rows.length] = _
  rw [List.append_assoc, List.append_nil]
  rfl

omit [Tally η] in
theorem HasMoved.received {r₀ : Recorded η} (h : HasMoved
    (r₀.calls ++ [.clear, .setWindowSize rows.length]) rows lo hi r) :
    Received r₀ rows lo hi r := by
  obtain ⟨-, moves, later, hcalls, hmap, hmoves⟩ := h
  exact ⟨moves, later, by rw [hcalls, List.append_assoc]; rfl, hmap, hmoves.isHistory⟩

omit [Tally η] in
theorem HasMoved.onlyAdds {r₀ : Recorded η} (h : HasMoved
    (r₀.calls ++ [.clear, .setWindowSize rows.length]) rows lo hi r) (hlo : lo = 0) :
    OnlyAdds r₀ rows r := by
  obtain ⟨-, moves, later, hcalls, hmap, hmoves⟩ := h
  refine ⟨later, by rw [hcalls, List.append_assoc]; rfl, fun call hcall => ?_⟩
  have hmem : some call ∈ moves.map (Move.call? rows) := hmap ▸ List.mem_map_of_mem hcall
  obtain ⟨move, hmove, hcall⟩ := List.mem_map.mp hmem
  obtain ⟨p, rfl⟩ := hmoves.eq_takeIn_of_lo_eq_zero hlo move hmove
  obtain ⟨row, -, rfl⟩ := Option.map_eq_some_iff.mp hcall
  exact ⟨row, rfl⟩

variable {store : RowStore} {i : Nat}

/-- The frame by row distance, asked for rows one after the other, has come to row `i`. -/
theorem alongside_of_answered_rowDistance {f : RowDistance (Recorded η)}
    {s : RowDistance (Recorded η) × RowStore} (hstore : store.Holds rows)
    (hfailed : f.held.tally.failed = false)
    (h : Answered (fun i _ => RowDistance.process i) rows (f.prepare rows.length, store) i s) :
    Alongside rows store (RowDistance.Reached (fun _ => HasMoved
      (f.held.tally.calls ++ [.clear, .setWindowSize rows.length]) rows) (f.prepare rows.length) i)
      s := by
  induction h with
  | start => exact ⟨⟨f.held.prepare rows.length, rfl, holds_prepare hfailed⟩, hstore, .refl store⟩
  | next h hrow hstep ih =>
    exact ((RowDistance.meets_process_reached (attempts_hasMoved _ rows) rfl _).of_ok ih hstep).2

/-- The frame by key distance, asked for rows one after the other, stands somewhere. -/
theorem alongside_of_answered_keyDistance {f : KeyDistance (Recorded η)}
    {s : KeyDistance (Recorded η) × RowStore} (hstore : store.Holds rows)
    (hfailed : f.held.tally.failed = false)
    (h : Answered (fun _ row => KeyDistance.process row) rows (f.prepare rows.length, store) i s) :
    Alongside rows store (KeyDistance.Stands (HasMoved
      (f.held.tally.calls ++ [.clear, .setWindowSize rows.length]) rows) (f.prepare rows.length)
      rows) s := by
  induction h with
  | start =>
    exact ⟨⟨f.held.prepare rows.length, 0, 0, ⟨rfl, fun _ => rfl⟩, holds_prepare hfailed,
      Nat.zero_le _, Nat.zero_le _⟩, hstore, .refl store⟩
  | next h hrow hstep ih =>
    exact ((KeyDistance.meets_process_stands (attempts_hasMoved _ rows) rfl).of_ok ih hstep).2

/-- **What every tally receives.** A frame is prepared for a partition and asked for its rows one
after the other. When it reads its tally for row `i`, the rows of the window it has found are held:
since the tally was cleared last, consecutive rows have come in up to the end of the window, and
those in front of it have gone out again, each behind its coming in; in the whole partition no row
comes in twice or goes out twice; and with an unbounded lower end all calls are for rows coming in.
The frame does not fail but where a call fails or, by key distance, an edge cannot be evaluated; and
without the record it does the same. -/
theorem received_of_answered (hstore : store.Holds rows) :
    (∀ (f : RowDistance (Recorded η)) s row, f.held.tally.failed = false →
      Answered (fun i _ => RowDistance.process i) rows (f.prepare rows.length, store) i s →
      rows[i]? = some row →
      Ends (fun v t => (v = Tally.values t.1.held.tally ∧
          Received f.held.tally rows ((f.prepare rows.length).window i).1
            ((f.prepare rows.length).window i).2 t.1.held.tally ∧
          (RowDistance.distance? .unboundedPreceding = .ok f.lower →
            OnlyAdds f.held.tally rows t.1.held.tally)) ∧
          RowDistance.process i (s.1.forget, s.2) = .ok v (t.1.forget, t.2))
        (fun e t => t.1.held.tally.failed = true ∧
          RowDistance.process i (s.1.forget, s.2) = .error e (t.1.forget, t.2))
        (RowDistance.process i s)) ∧
    ∀ (f : KeyDistance (Recorded η)) s row, f.held.tally.failed = false →
      Answered (fun _ row => KeyDistance.process row) rows (f.prepare rows.length, store) i s →
      rows[i]? = some row →
      Ends (fun v t => (v = Tally.values t.1.held.tally ∧
          Received f.held.tally rows t.1.lo (max t.1.lo t.1.hi) t.1.held.tally ∧
          ∀ sort, Edge.ofBound .lower .unboundedPreceding sort = .ok f.lower →
            OnlyAdds f.held.tally rows t.1.held.tally) ∧
          KeyDistance.process row (s.1.forget, s.2) = .ok v (t.1.forget, t.2))
        (fun e t => (f.EdgeFails rows row e ∨ t.1.held.tally.failed = true) ∧
          KeyDistance.process row (s.1.forget, s.2) = .error e (t.1.forget, t.2))
        (KeyDistance.process row s) := by
  constructor
  · intro f s row hfailed h hrow
    refine (RowDistance.ignores_process i).ends ((RowDistance.meets_process_reached
      (attempts_hasMoved _ rows) rfl i s
      (alongside_of_answered_rowDistance hstore hfailed h)).imp ?_ fun _ _ he => he)
    rintro v t ⟨hv, ⟨held, heq, hheld⟩, -⟩
    have htally : t.1.held.tally = held.tally := congrArg (fun f => f.held.tally) heq
    rw [htally]
    refine ⟨hv.trans (congrArg Tally.values htally), hheld.tally.received, fun hlower => ?_⟩
    -- without a lower bound every window starts at the first row
    refine hheld.tally.onlyAdds (RowDistance.window_fst_of_lower_eq_none ?_ i)
    exact (Except.ok.inj hlower).symm
  · intro f s row hfailed h hrow
    refine (KeyDistance.ignores_process row).ends ((KeyDistance.meets_process_stands
      (attempts_hasMoved _ rows) rfl s
      (alongside_of_answered_keyDistance hstore hfailed h)).imp ?_ fun _ _ he => he)
    rintro v t ⟨hv, ⟨held, lo, hi, ⟨heq, hunbounded⟩, hheld, -, -⟩, -⟩
    have htally : t.1.held.tally = held.tally := congrArg (fun f => f.held.tally) heq
    have hlo : t.1.lo = lo := congrArg KeyDistance.lo heq
    have hhi : t.1.hi = hi := congrArg KeyDistance.hi heq
    rw [htally, hlo, hhi]
    refine ⟨hv.trans (congrArg Tally.values htally), hheld.tally.received, fun sort hlower => ?_⟩
    refine hheld.tally.onlyAdds (hunbounded ?_)
    exact congrArg Edge.place (Except.ok.inj hlower).symm

/-- `COUNT(*)` over three rows, asked for the second. By row distance, from the current row to the
next one, the first row has gone out; by key distance, from the start of the partition to the
current row, two rows have come in. -/
theorem received_of_answered_second_row :
    let rows : List Row := [[.integer 1], [.integer 2], [.integer 3]]
    let store : RowStore := { options := {}, rows := rows.toArray }
    let count : Recorded (CallTally Empty) := { tally := ⟨[⟨.count 0, none, none⟩]⟩ }
    let byRow : RowDistance (Recorded (CallTally Empty)) :=
      { held := { tally := count }, lower := some 0, upper := some 1 }
    let byKey : KeyDistance (Recorded (CallTally Empty)) :=
      { held := { tally := count }, lower := ⟨.lower, .unbounded⟩,
        upper := ⟨.upper, .peers [⟨0, true⟩]⟩ }
    (∃ s t, Answered (fun i _ => RowDistance.process i) rows (byRow.prepare 3, store) 1 s ∧
      RowDistance.process 1 s = .ok [.integer 2] t ∧
      t.1.held.tally.calls = [.clear, .setWindowSize 3, .add [.integer 1], .add [.integer 2],
        .remove [.integer 1], .add [.integer 3]] ∧
      Received count rows 1 3 t.1.held.tally) ∧
    ∃ s t, Answered (fun _ row => KeyDistance.process row) rows (byKey.prepare 3, store) 1 s ∧
      KeyDistance.process [.integer 2] s = .ok [.integer 2] t ∧
      Received count rows 0 2 t.1.held.tally ∧ OnlyAdds count rows t.1.held.tally := by
  intro rows store count byRow byKey
  have hstore : store.Holds rows := RowStore.holds_of_spill_eq_none rfl rfl
  -- the run of rows and the record behind the first row and behind the second one
  let held (n start stop : Nat) (calls : List TallyCall) : Held (Recorded (CallTally Empty)) :=
    ⟨⟨⟨[⟨.count n, none, none⟩]⟩, .clear :: .setWindowSize 3 :: calls, false⟩, start, stop⟩
  constructor
  · let first :=
      { byRow with length := 3, held := held 2 0 2 [.add [.integer 1], .add [.integer 2]] }
    let second := { byRow with length := 3, held := held 2 1 3 [.add [.integer 1],
      .add [.integer 2], .remove [.integer 1], .add [.integer 3]] }
    have hfirst : RowDistance.process 0 (byRow.prepare 3, store) = .ok [.integer 2]
      (first, store) := rfl
    have hsecond : RowDistance.process 1 (first, store) = .ok [.integer 2] (second, store) := rfl
    have hends := (received_of_answered hstore).1 byRow (first, store) [.integer 2] rfl
      (.next .start rfl hfirst) rfl
    rw [hsecond, Action.ends_ok_iff] at hends
    exact ⟨_, _, .next .start rfl hfirst, hsecond, rfl, hends.1.2.1⟩
  · let first := { byKey with length := 3, hi := 1, held := held 1 0 1 [.add [.integer 1]] }
    let second :=
      { byKey with length := 3, hi := 2, held := held 2 0 2 [.add [.integer 1], .add [.integer 2]] }
    have hfirst : KeyDistance.process [.integer 1] (byKey.prepare 3, store) = .ok [.integer 1]
      (first, store) := rfl
    have hsecond : KeyDistance.process [.integer 2] (first, store) = .ok [.integer 2]
      (second, store) := rfl
    have hends := (received_of_answered hstore).2 byKey (first, store) [.integer 2] rfl
      (.next .start rfl hfirst) rfl
    rw [hsecond, Action.ends_ok_iff] at hends
    exact ⟨_, _, .next .start rfl hfirst, hsecond, hends.1.2.1, hends.1.2.2 [] rfl⟩

end Recorded

end SqlWindow
