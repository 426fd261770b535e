import SqlWindow.Row

set_option autoImplicit false

/-! # The size of rows

What several rows are charged with together, and how many of them a budget has room for.
-/

namespace SqlWindow

namespace Row

/-- The bytes that some rows are charged with against a memory budget. -/
def totalSize (rows : List Row) : Nat := rows.foldr (fun row n => row.size + n) 0

theorem totalSize_cons (row : Row) (rows : List Row) :
    totalSize (row :: rows) = row.size + totalSize rows := rfl

theorem totalSize_append (rows more : List Row) :
    totalSize (rows ++ more) = totalSize rows + totalSize more := by
  induction rows with
  | nil => exact (Nat.zero_add _).symm
  | cons row rows ih => rw [List.cons_append, totalSize_cons, totalSize_cons, ih, Nat.add_assoc]

theorem totalSize_concat (rows : List Row) (row : Row) :
    totalSize (rows ++ [row]) = totalSize rows + row.size :=
  totalSize_append rows [row]

/-! ## The longest prefix that fits -/

/-- Of the prefixes of `rows` that a budget has room for, `front` is the longest. -/
structure LongestWithin (budget : Nat) (rows front : List Row) : Prop where
  isPrefix : front <+: rows
  within : totalSize front ≤ budget
  longest : ∀ other, other <+: rows → totalSize other ≤ budget → other <+: front

namespace LongestWithin

variable {budget : Nat} {rows front : List Row} {row : Row}

theorem self (h : totalSize rows ≤ budget) : LongestWithin budget rows rows :=
  ⟨List.prefix_rfl, h, fun _ hother _ => hother⟩

/-- Rows that all fit are the longest prefix themselves. -/
theorem eq (h : LongestWithin budget rows front) (hrows : totalSize rows ≤ budget) :
    front = rows :=
  h.isPrefix.eq_of_length_le (h.longest rows List.prefix_rfl hrows).length_le

/-- A row behind which the rows do not all fit makes no difference. -/
theorem concat (h : LongestWithin budget rows front) (hover : budget < totalSize (rows ++ [row])) :
    LongestWithin budget (rows ++ [row]) front := by
  refine ⟨h.isPrefix.trans (List.prefix_append _ _), h.within, fun other hother hfits => ?_⟩
  rcases List.prefix_concat_iff.mp hother with rfl | hother
  · exact absurd hfits (Nat.not_le.mpr hover)
  · exact h.longest other hother hfits

end LongestWithin

end Row

end SqlWindow
