import Mathlib.Data.List.Basic
import SqlWindow.Frame.Tally

set_option autoImplicit false

/-! # The way of a moving run of rows

A frame that keeps a run of consecutive rows moves it on by one row at a time, at the front or at
the end, or gives the whole run up and goes on from a later place. What is done to the tally on
this way is said move by move, each with the position of its row. `Moved moves lo hi` are the ways
from the start of a partition to the run from `lo` up to but without `hi`, and `IsHistory` is what
all of them have in common.
-/

namespace SqlWindow

/-- What a frame asks of its tally. -/
inductive TallyCall where
  | add (row : Row)
  | remove (row : Row)
  | clear
  | setWindowSize (length : Nat)
deriving DecidableEq, Repr

/-- A move of a run of rows. -/
inductive Move where
  /-- The row at a position comes in. -/
  | takeIn (p : Nat)
  /-- The row at a position goes out. -/
  | giveBack (p : Nat)
  /-- The run is given up. -/
  | startAnew
deriving DecidableEq, Repr

namespace Move

/-- The call that makes a move in a partition; none when there is no such row. -/
def call? (rows : List Row) : Move → Option TallyCall
  | takeIn p => rows[p]?.map TallyCall.add
  | giveBack p => rows[p]?.map TallyCall.remove
  | startAnew => some TallyCall.clear

/-- The position that comes in. -/
def taken? : Move → Option Nat
  | takeIn p => some p
  | _ => none

/-- The position that goes out. -/
def given? : Move → Option Nat
  | giveBack p => some p
  | _ => none

/-- The positions that come in, in the order of the moves. -/
def taken (moves : List Move) : List Nat := moves.filterMap taken?

/-- The positions that go out, in the order of the moves. -/
def given (moves : List Move) : List Nat := moves.filterMap given?

/-- The moves since the run was last given up, one move later. -/
def since (moves : List Move) (move : Move) : List Move :=
  if move = startAnew then [] else moves ++ [move]

/-- The moves since the run was last given up. -/
def sinceStart (moves : List Move) : List Move := moves.foldl since []

variable {moves : List Move} {p : Nat}

theorem taken_concat_takeIn : taken (moves ++ [takeIn p]) = taken moves ++ [p] :=
  List.filterMap_append

theorem taken_concat_giveBack : taken (moves ++ [giveBack p]) = taken moves := by
  rw [taken, List.filterMap_append]
  exact List.append_nil _

theorem taken_concat_startAnew : taken (moves ++ [startAnew]) = taken moves := by
  rw [taken, List.filterMap_append]
  exact List.append_nil _

theorem given_concat_giveBack : given (moves ++ [giveBack p]) = given moves ++ [p] :=
  List.filterMap_append

theorem given_concat_takeIn : given (moves ++ [takeIn p]) = given moves := by
  rw [given, List.filterMap_append]
  exact List.append_nil _

theorem given_concat_startAnew : given (moves ++ [startAnew]) = given moves := by
  rw [given, List.filterMap_append]
  exact List.append_nil _

theorem sinceStart_concat_takeIn :
    sinceStart (moves ++ [takeIn p]) = sinceStart moves ++ [takeIn p] :=
  List.foldl_append

theorem sinceStart_concat_giveBack :
    sinceStart (moves ++ [giveBack p]) = sinceStart moves ++ [giveBack p] :=
  List.foldl_append

theorem sinceStart_concat_startAnew : sinceStart (moves ++ [startAnew]) = [] :=
  List.foldl_append

theorem takeIn_mem_of_mem_taken (h : p ∈ taken moves) : takeIn p ∈ moves := by
  obtain ⟨move, hmem, hmove⟩ := List.mem_filterMap.mp h
  cases move with
  | takeIn q =>
    cases hmove
    exact hmem
  | giveBack q => cases hmove
  | startAnew => cases hmove

end Move

open Move

/-- The moves by which a run of rows comes from the start of the partition to the run from `lo` up
to but without `hi`. -/
inductive Moved : List Move → Nat → Nat → Prop where
  | start : Moved [] 0 0
  /-- The next row comes in. -/
  | takeIn {moves : List Move} {lo hi : Nat} (h : Moved moves lo hi) :
    Moved (moves ++ [takeIn hi]) lo (hi + 1)
  /-- The first row goes out, but not the last one that is left. -/
  | giveBack {moves : List Move} {lo hi : Nat} (h : Moved moves lo hi) (hlt : lo + 1 < hi) :
    Moved (moves ++ [giveBack lo]) (lo + 1) hi
  /-- The run is given up for an empty one behind it. -/
  | startAnew {moves : List Move} {lo hi next : Nat} (h : Moved moves lo hi) (hlt : lo < hi)
    (hle : hi ≤ next) : Moved (moves ++ [startAnew]) next next
  /-- An empty run is somewhere else without a move. -/
  | skip {moves : List Move} {lo next : Nat} (h : Moved moves lo lo) (hle : lo ≤ next) :
    Moved moves next next

/-- What the moves have been when the run has come to the rows from `lo` up to but without `hi`. -/
structure IsHistory (moves : List Move) (lo hi : Nat) : Prop where
  /-- Since the run was last given up, consecutive rows have come in up to `hi`, and those in front
  of `lo` have gone out again, one by one in their order. -/
  since : ∃ a, a ≤ lo ∧ taken (sinceStart moves) = List.range' a (hi - a) ∧
    given (sinceStart moves) = List.range' a (lo - a)
  /-- A row goes out behind its coming in. -/
  order : ∀ before p, before ++ [giveBack p] <+: sinceStart moves → takeIn p ∈ before
  /-- In the whole partition rows come in in their order, so none does so twice. -/
  taken : (taken moves).Pairwise (· < ·)
  /-- In the whole partition rows go out in their order, so none does so twice. -/
  given : (given moves).Pairwise (· < ·)

namespace Moved

variable {moves : List Move} {lo hi : Nat}

theorem le (h : Moved moves lo hi) : lo ≤ hi := by
  induction h with
  | start => exact Nat.le_refl 0
  | takeIn h ih => exact Nat.le_succ_of_le ih
  | giveBack h hlt ih => omega
  | startAnew h hlt hle ih => exact Nat.le_refl _
  | skip h hle ih => exact Nat.le_refl _

/-- Since an empty run was given up nothing has moved. -/
theorem sinceStart_of_eq (h : Moved moves lo hi) (heq : lo = hi) : sinceStart moves = [] := by
  induction h with
  | start => rfl
  | takeIn h ih =>
    have hle := h.le
    omega
  | giveBack h hlt ih => omega
  | startAnew h hlt hle ih => exact sinceStart_concat_startAnew
  | skip h hle ih => exact ih rfl

theorem mem_taken_lt (h : Moved moves lo hi) : ∀ p ∈ taken moves, p < hi := by
  induction h with
  | start => exact fun p hp => absurd hp List.not_mem_nil
  | @takeIn moves lo hi h ih =>
    intro p hp
    rw [taken_concat_takeIn, List.mem_append, List.mem_singleton] at hp
    obtain hp | rfl := hp
    · exact Nat.lt_succ_of_lt (ih p hp)
    · exact Nat.lt_succ_self p
  | giveBack h hlt ih => rwa [taken_concat_giveBack]
  | startAnew h hlt hle ih =>
    rw [taken_concat_startAnew]
    exact fun p hp => Nat.lt_of_lt_of_le (ih p hp) hle
  | skip h hle ih => exact fun p hp => Nat.lt_of_lt_of_le (ih p hp) hle

theorem mem_given_lt (h : Moved moves lo hi) : ∀ p ∈ given moves, p < lo := by
  induction h with
  | start => exact fun p hp => absurd hp List.not_mem_nil
  | takeIn h ih => rwa [given_concat_takeIn]
  | @giveBack moves lo hi h hlt ih =>
    intro p hp
    rw [given_concat_giveBack, List.mem_append, List.mem_singleton] at hp
    obtain hp | rfl := hp
    · exact Nat.lt_succ_of_lt (ih p hp)
    · exact Nat.lt_succ_self p
  | startAnew h hlt hle ih =>
    rw [given_concat_startAnew]
    exact fun p hp => Nat.lt_of_lt_of_le (ih p hp) (by omega)
  | skip h hle ih => exact fun p hp => Nat.lt_of_lt_of_le (ih p hp) hle

theorem pairwise_taken (h : Moved moves lo hi) : (taken moves).Pairwise (· < ·) := by
  induction h with
  | start => exact .nil
  | takeIn h ih =>
    rw [taken_concat_takeIn, List.pairwise_append]
    refine ⟨ih, List.pairwise_singleton _ _, fun p hp q hq => ?_⟩
    rw [List.mem_singleton.mp hq]
    exact h.mem_taken_lt p hp
  | giveBack h hlt ih => rwa [taken_concat_giveBack]
  | startAnew h hlt hle ih => rwa [taken_concat_startAnew]
  | skip h hle ih => exact ih

theorem pairwise_given (h : Moved moves lo hi) : (given moves).Pairwise (· < ·) := by
  induction h with
  | start => exact .nil
  | takeIn h ih => rwa [given_concat_takeIn]
  | giveBack h hlt ih =>
    rw [given_concat_giveBack, List.pairwise_append]
    refine ⟨ih, List.pairwise_singleton _ _, fun p hp q hq => ?_⟩
    rw [List.mem_singleton.mp hq]
    exact h.mem_given_lt p hp
  | startAnew h hlt hle ih => rwa [given_concat_startAnew]
  | skip h hle ih => exact ih

/-- Since the run was last given up, consecutive rows have come in and gone out. -/
theorem exists_since (h : Moved moves lo hi) :
    ∃ a, a ≤ lo ∧ taken (sinceStart moves) = List.range' a (hi - a) ∧
      given (sinceStart moves) = List.range' a (lo - a) := by
  have hnone (next : Nat) : taken [] = List.range' next (next - next) ∧
      given [] = List.range' next (next - next) := by
    rw [Nat.sub_self]
    exact ⟨rfl, rfl⟩
  induction h with
  | start => exact ⟨0, Nat.le_refl 0, rfl, rfl⟩
  | @takeIn moves lo hi h ih =>
    obtain ⟨a, ha, htaken, hgiven⟩ := ih
    have hle := h.le
    refine ⟨a, ha, ?_, ?_⟩
    · rw [sinceStart_concat_takeIn, taken_concat_takeIn, htaken, Nat.succ_sub (by omega),
        List.range'_concat, Nat.one_mul, show a + (hi - a) = hi by omega]
    · rw [sinceStart_concat_takeIn, given_concat_takeIn, hgiven]
  | @giveBack moves lo hi h hlt ih =>
    obtain ⟨a, ha, htaken, hgiven⟩ := ih
    refine ⟨a, Nat.le_succ_of_le ha, ?_, ?_⟩
    · rw [sinceStart_concat_giveBack, taken_concat_giveBack, htaken]
    · rw [sinceStart_concat_giveBack, given_concat_giveBack, hgiven, Nat.succ_sub ha,
        List.range'_concat, Nat.one_mul, show a + (lo - a) = lo by omega]
  | @startAnew moves lo hi next h hlt hle ih =>
    refine ⟨next, Nat.le_refl next, ?_⟩
    rw [sinceStart_concat_startAnew]
    exact hnone next
  | @skip moves lo next h hle ih =>
    refine ⟨next, Nat.le_refl next, ?_⟩
    rw [h.sinceStart_of_eq rfl]
    exact hnone next

/-- A row goes out behind its coming in. -/
theorem takeIn_mem_of_giveBack (h : Moved moves lo hi) {before : List Move} {p : Nat}
    (hbefore : before ++ [Move.giveBack p] <+: sinceStart moves) : Move.takeIn p ∈ before := by
  induction h with
  | start => exact absurd (List.prefix_nil.mp hbefore) (by simp)
  | takeIn h ih =>
    rw [sinceStart_concat_takeIn, List.prefix_concat_iff] at hbefore
    obtain heq | hprefix := hbefore
    · cases (List.append_inj' heq rfl).2
    · exact ih hprefix
  | @giveBack moves lo hi h hlt ih =>
    rw [sinceStart_concat_giveBack, List.prefix_concat_iff] at hbefore
    obtain heq | hprefix := hbefore
    · -- the row that goes out now is one of those that have come in up to `hi`
      obtain ⟨rfl, hp⟩ := List.append_inj' heq rfl
      cases hp
      obtain ⟨a, ha, htaken, -⟩ := h.exists_since
      refine takeIn_mem_of_mem_taken ?_
      rw [htaken, List.mem_range'_1]
      omega
    · exact ih hprefix
  | startAnew h hlt hle ih =>
    rw [sinceStart_concat_startAnew] at hbefore
    exact absurd (List.prefix_nil.mp hbefore) (by simp)
  | skip h hle ih => exact ih hbefore

/-- **The way is a history.** -/
theorem isHistory (h : Moved moves lo hi) : IsHistory moves lo hi where
  since := h.exists_since
  order _ _ hbefore := h.takeIn_mem_of_giveBack hbefore
  taken := h.pairwise_taken
  given := h.pairwise_given

/-- A run that still starts at the first row has only grown. -/
theorem eq_takeIn_of_lo_eq_zero (h : Moved moves lo hi) (hlo : lo = 0) :
    ∀ move ∈ moves, ∃ p, move = Move.takeIn p := by
  induction h with
  | start => exact fun move hmove => absurd hmove List.not_mem_nil
  | takeIn h ih =>
    intro move hmove
    rw [List.mem_append, List.mem_singleton] at hmove
    obtain hmove | rfl := hmove
    · exact ih hlo move hmove
    · exact ⟨_, rfl⟩
  | giveBack h hlt ih => omega
  | startAnew h hlt hle ih => omega
  | skip h hle ih => exact ih (by omega)

end Moved

end SqlWindow
