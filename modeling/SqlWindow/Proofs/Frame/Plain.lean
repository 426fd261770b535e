import SqlWindow.Frame.KeyDistance
import SqlWindow.Frame.OtherRow
import SqlWindow.Proofs.Answer
import SqlWindow.Proofs.Store.RowStore

set_option autoImplicit false

/-! # Errors that are not about retraction

Of all that frames do beside a store, only taking values back can fail because a function does not
support it. Reading fields, comparing rows, moving along distances and keeping rows fail in other
ways.
-/

namespace SqlWindow

open Answer (IsPlain)

variable {σ : Type} (row current candidate : Row)

namespace Row

theorem isPlain_field (index : Nat) : IsPlain (row.field index) := by
  unfold field
  split
  · exact .ok _
  · exact .error rfl

theorem isPlain_order (sort : List SortKey) : IsPlain (order sort candidate current) := by
  induction sort with
  | nil => exact .ok _
  | cons key sort ih =>
    refine .bind (isPlain_field _ _) fun x => .bind (isPlain_field _ _) fun y => ?_
    split
    · exact ih
    · exact .ok _

theorem isPlain_samePartition (fields : List Nat) : IsPlain (samePartition fields row current) := by
  induction fields with
  | nil => exact .ok _
  | cons index fields ih =>
    refine .bind (isPlain_field _ _) fun x => .bind (isPlain_field _ _) fun y => ?_
    split
    · exact ih
    · exact .ok _

end Row

theorem Operand.isPlain_eval (o : Operand) : IsPlain (o.eval row) := by
  cases o with
  | field index => exact Row.isPlain_field row index
  | literal v => exact .ok v

theorem Slot.isPlain_feed (operand : Option Operand) : IsPlain (feed operand row) := by
  cases operand with
  | none => exact .ok _
  | some o => exact o.isPlain_eval row

theorem Value.isPlain_shift (v d : Value) : IsPlain (v.shift d) := by
  unfold shift
  split
  case h_7 => exact .error rfl
  all_goals exact .ok _

theorem EdgePlace.isPlain_position? (place : EdgePlace) :
    IsPlain (place.position? current candidate) := by
  cases place with
  | unbounded => exact .ok _
  | peers sort => exact .bind (Row.isPlain_order _ _ sort) fun _ => .ok _
  | distance key d =>
    refine .bind (Row.isPlain_field _ _) fun x => .bind (Row.isPlain_field _ _) fun y => ?_
    split
    · exact .ok _
    · exact .bind (Value.isPlain_shift x d) fun _ => .ok _
    · exact .ok _

theorem Edge.isPlain_admits (e : Edge) : IsPlain (e.admits current candidate) := by
  refine .bind (EdgePlace.isPlain_position? _ _ e.place) fun position => ?_
  cases position <;> exact .ok _

/-- An edge at the end of the partition admits every row. -/
theorem Edge.admits_of_place_eq {e : Edge} (h : e.place = .unbounded) :
    e.admits current candidate = .ok true := by
  unfold admits
  rw [h]
  rfl

theorem OtherRow.isPlain_target? (f : OtherRow σ) (index : Nat) :
    IsPlain (f.target? index current) := by
  refine .bind (f.offset.isPlain_eval current) fun v => ?_
  split
  · exact .ok _
  · exact .ok _
  · exact .error rfl

/-! ## Stores -/

theorem SpillFile.isPlain_append (f : SpillFile) : IsPlain (f.append row) := by
  unfold append
  dsimp only
  split
  · exact .ok _
  · exact .error rfl

theorem RowStore.isPlain_append (s : RowStore) : IsPlain ((append row).outcome s).1 := by
  have hfile (f : SpillFile) : IsPlain ((appendToFile f row).outcome s).1 := by
    unfold Action.outcome
    cases hf : f.append row with
    | ok g =>
      rw [appendToFile_ok hf]
      exact .ok ()
    | error e =>
      rw [appendToFile_error hf]
      exact .error (f.isPlain_append row e hf)
  unfold Action.outcome at hfile ⊢
  rw [append_eq]
  cases s.spill with
  | some f => exact hfile f
  | none =>
    dsimp only
    by_cases hroom : s.memoryUsed + row.size ≤ s.options.memory
    · rw [if_pos hroom]
      exact .ok ()
    · rw [if_neg hroom]
      by_cases hcan : s.canSpill = true
      · rw [if_pos hcan]
        exact hfile {}
      · rw [if_neg hcan]
        exact .error rfl

end SqlWindow
