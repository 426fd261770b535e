import SqlWindow.Row

set_option autoImplicit false

/-! # Consecutive rows

The rows between two positions of a partition, as they grow and shrink at either end, and as
what a test on rows and positions lets through.
-/

namespace SqlWindow

/-- The rows from position `a` up to but without `b`. -/
def rowsBetween (rows : List Row) (a b : Nat) : List Row := (rows.take b).drop a

variable {rows : List Row} {row : Row} {a b : Nat}

theorem rowsBetween_of_le (hba : b ≤ a) : rowsBetween rows a b = [] := by
  rw [rowsBetween, List.drop_eq_nil_iff, List.length_take]
  exact Nat.le_trans (Nat.min_le_left b rows.length) hba

theorem rowsBetween_self (rows : List Row) (a : Nat) : rowsBetween rows a a = [] :=
  rowsBetween_of_le (Nat.le_refl a)

theorem rowsBetween_zero_length (rows : List Row) : rowsBetween rows 0 rows.length = rows := by
  rw [rowsBetween, List.take_length, List.drop_zero]

theorem rowsBetween_succ (hab : a ≤ b) (hrow : rows[b]? = some row) :
    rowsBetween rows a (b + 1) = rowsBetween rows a b ++ [row] := by
  have hb : b < rows.length := (List.getElem?_eq_some_iff.mp hrow).1
  rw [rowsBetween, rowsBetween, List.take_add_one, hrow, Option.toList_some,
    List.drop_append_of_le_length (by rw [List.length_take]; omega)]

theorem rowsBetween_eq_cons (hab : a < b) (hrow : rows[a]? = some row) :
    rowsBetween rows a b = row :: rowsBetween rows (a + 1) b := by
  obtain ⟨ha, rfl⟩ := List.getElem?_eq_some_iff.mp hrow
  have hlt : a < (rows.take b).length := by
    rw [List.length_take]
    omega
  rw [rowsBetween, rowsBetween, List.drop_eq_getElem_cons hlt, List.getElem_take]

theorem rowsBetween_append {c : Nat} (hab : a ≤ b) (hbc : b ≤ c) :
    rowsBetween rows a b ++ rowsBetween rows b c = rowsBetween rows a c := by
  have htake : (rows.take c).take b = rows.take b := by rw [List.take_take, Nat.min_eq_left hbc]
  rw [rowsBetween, ← htake, List.drop_take, rowsBetween, rowsBetween]
  conv => rhs; rw [← List.take_append_drop (b - a) ((rows.take c).drop a), List.drop_drop]
  rw [Nat.add_sub_cancel' hab]

/-- Which rows lie between two positions depends on these rows alone. -/
theorem rowsBetween_congr {rows' : List Row}
    (h : ∀ p, a ≤ p → p < b → rows[p]? = rows'[p]?) :
    rowsBetween rows a b = rowsBetween rows' a b := by
  refine List.ext_getElem? fun k => ?_
  rw [rowsBetween, rowsBetween, List.getElem?_drop, List.getElem?_drop, List.getElem?_take,
    List.getElem?_take]
  by_cases hk : a + k < b
  · rw [if_pos hk, if_pos hk, h (a + k) (Nat.le_add_right a k) hk]
  · rw [if_neg hk, if_neg hk]

theorem exists_getElem?_of_mem_rowsBetween (h : row ∈ rowsBetween rows a b) :
    ∃ p, a ≤ p ∧ p < b ∧ rows[p]? = some row := by
  obtain ⟨k, hk⟩ := List.mem_iff_getElem?.mp h
  rw [rowsBetween, List.getElem?_drop, List.getElem?_take] at hk
  by_cases hlt : a + k < b
  · rw [if_pos hlt] at hk
    exact ⟨a + k, Nat.le_add_right a k, hlt, hk⟩
  · rw [if_neg hlt] at hk
    cases hk

theorem mem_of_mem_rowsBetween (h : row ∈ rowsBetween rows a b) : row ∈ rows :=
  List.mem_of_mem_take (List.mem_of_mem_drop h)

/-! ## Tests that let consecutive rows through -/

/-- The rows that a test lets through, with their positions counted from `k`, are the ones
between two positions when the test says so for each. -/
theorem filter_zipIdx_eq_take_drop {p : Row × Nat → Bool} (k : Nat)
    (hp : ∀ j row, rows[j]? = some row → (p (row, k + j) ↔ a ≤ k + j ∧ k + j < b)) :
    ((rows.zipIdx k).filter p).map Prod.fst = (rows.take (b - k)).drop (a - k) := by
  induction rows generalizing k with
  | nil => simp
  | cons row rows ih =>
    have hrest := ih (k + 1) fun j r hr => by
      rw [Nat.add_right_comm, Nat.add_assoc]
      exact hp (j + 1) r hr
    have hfirst := hp 0 row rfl
    rw [Nat.add_zero] at hfirst
    rw [List.zipIdx_cons, List.filter_cons]
    -- Whether the first row is let through tells on which side of `a` and `b` its position lies.
    by_cases hrow : p (row, k)
    · obtain ⟨ha, hb⟩ := hfirst.mp hrow
      rw [if_pos hrow, List.map_cons, hrest, show a - (k + 1) = 0 by omega,
        show a - k = 0 by omega, show b - k = b - (k + 1) + 1 by omega, List.take_succ_cons]
      rfl
    · have hout : ¬(a ≤ k ∧ k < b) := fun h => hrow (hfirst.mpr h)
      rw [if_neg hrow, hrest]
      rcases Nat.lt_or_ge k b with hkb | hkb
      · rw [show b - k = b - (k + 1) + 1 by omega, show a - k = a - (k + 1) + 1 by omega,
          List.take_succ_cons, List.drop_succ_cons]
      · rw [show b - k = 0 by omega, show b - (k + 1) = 0 by omega]
        simp

theorem filter_zipIdx_eq_rowsBetween {p : Nat → Bool}
    (hp : ∀ j, j < rows.length → (p j ↔ a ≤ j ∧ j < b)) :
    (rows.zipIdx.filter fun q => p q.2).map Prod.fst = rowsBetween rows a b := by
  refine filter_zipIdx_eq_take_drop 0 fun j row hrow => ?_
  rw [Nat.zero_add]
  exact hp j (List.getElem?_eq_some_iff.mp hrow).1

theorem filter_eq_rowsBetween {p : Row → Bool}
    (hp : ∀ j row, rows[j]? = some row → (p row ↔ a ≤ j ∧ j < b)) :
    rows.filter p = rowsBetween rows a b := by
  have hfilter : (rows.zipIdx.filter fun q => p q.1).map Prod.fst = rowsBetween rows a b :=
    filter_zipIdx_eq_take_drop 0 fun j row hrow => by
      rw [Nat.zero_add]
      exact hp j row hrow
  rw [← hfilter]
  conv => lhs; rw [← List.zipIdx_map_fst 0 rows]
  rw [List.filter_map]
  rfl

end SqlWindow
