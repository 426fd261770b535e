import SqlWindow.Proofs.Answer
import SqlWindow.Proofs.Value.Order
import SqlWindow.Row.Keys
import SqlWindow.Spec.Check

set_option autoImplicit false

/-! # Conforming rows

A row conforms to the types of the input fields when it has as many values and each is NULL or
of its field's type. On such rows every operand that has a type has a value, of that type.
-/

namespace SqlWindow

/-- The row has a value for every field, NULL or of the field's type. -/
def Row.Conforms (row : Row) (types : List DataType) : Prop :=
  row.length = types.length ∧ ∀ p ∈ row.zip types, p.1.Conforms p.2

instance (row : Row) (types : List DataType) : Decidable (Row.Conforms row types) :=
  inferInstanceAs (Decidable (_ ∧ _))

variable {row other : Row} {types : List DataType} {type : DataType} {index : Nat}

theorem Row.Conforms.field (h : Row.Conforms row types) (htype : types[index]? = some type) :
    ∃ v, Row.field row index = .ok v ∧ v.Conforms type := by
  have hlt : index < row.length := by
    rw [h.1]
    exact (List.getElem?_eq_some_iff.mp htype).1
  have hv : row[index]? = some row[index] := List.getElem?_eq_getElem hlt
  refine ⟨row[index], by rw [Row.field, hv], h.2 (row[index], type) ?_⟩
  exact List.mem_iff_getElem?.mpr ⟨index, List.getElem?_zip_eq_some.mpr ⟨hv, htype⟩⟩

theorem getElem?_of_fieldType (h : fieldType types index = .ok type) :
    types[index]? = some type := by
  simp only [fieldType, Operand.type] at h
  cases htype : types[index]? with
  | none =>
    rw [htype] at h
    cases h
  | some t =>
    rw [htype] at h
    rw [Except.ok.inj h]

/-- **Operands have values.** An operand with a type has a value of this type on every row that
conforms. -/
theorem Row.Conforms.eval (h : Row.Conforms row types) {o : Operand}
    (htype : o.type types = .ok type) : ∃ v, o.eval row = .ok v ∧ v.Conforms type := by
  cases o with
  | field index => exact h.field (getElem?_of_fieldType htype)
  | literal v => exact ⟨v, rfl, .inr (Except.ok.inj htype)⟩

/-- On conforming rows the partition fields of a group can be compared. -/
theorem Row.Conforms.samePartition (h : Row.Conforms row types) (h' : Row.Conforms other types)
    {fields : List Nat} (hfields : ∀ index ∈ fields, ∃ type, fieldType types index = .ok type) :
    ∃ b, Row.samePartition fields row other = .ok b := by
  induction fields with
  | nil => exact ⟨true, rfl⟩
  | cons index fields ih =>
    obtain ⟨type, htype⟩ := hfields index List.mem_cons_self
    obtain ⟨v, hv, -⟩ := h.field (getElem?_of_fieldType htype)
    obtain ⟨w, hw, -⟩ := h'.field (getElem?_of_fieldType htype)
    obtain ⟨b, hb⟩ := ih fun index hindex => hfields index (List.mem_cons_of_mem _ hindex)
    rw [Row.samePartition, Answer.bind_of_ok hv, Answer.bind_of_ok hw]
    by_cases hsame : v.same w
    · exact ⟨b, by rw [if_pos hsame, hb]⟩
    · exact ⟨false, by rw [if_neg hsame]; rfl⟩

end SqlWindow
