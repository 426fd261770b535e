import SqlWindow.Proofs.Spec.Conforming

set_option autoImplicit false

/-! # The order of rows

Rows that conform to the types of the input fields are ordered by the keys of their values,
ordering field by ordering field. This order is total and transitive, so in a partition that is
sorted every row is in order with every later one, and with respect to the first ordering field
alone as well.
-/

namespace SqlWindow

/-! ## One ordering field -/

namespace SortKey

/-- The order of keys along an ordering field. -/
def keyOrder (key : SortKey) (a b : Value) : Ordering :=
  if key.ascending then Value.keyOrder a b else Value.keyOrder b a

instance (key : SortKey) : Std.TransCmp key.keyOrder := by
  cases h : key.ascending with
  | true =>
    have heq : key.keyOrder = Value.keyOrder := by
      funext a b
      rw [keyOrder, h, if_pos rfl]
    rw [heq]
    infer_instance
  | false =>
    have heq : key.keyOrder = fun a b => Value.keyOrder b a := by
      funext a b
      rw [keyOrder, h]
      rfl
    rw [heq]
    infer_instance

variable {key : SortKey} {a b : Value} {type : DataType}

theorem order_eq_keyOrder (ha : a.Conforms type) (hb : b.Conforms type) :
    key.order a b = key.keyOrder a b := by
  unfold order keyOrder
  rw [← Value.order_swap, Value.order_eq_keyOrder_of_conforms ha hb,
    Value.order_eq_keyOrder_of_conforms hb ha]

end SortKey

/-! ## Rows -/

namespace Row

variable {types : List DataType} {sort : List SortKey} {row a b : Row}

/-- The value of a field; NULL where there is no such field. -/
def value (row : Row) (index : Nat) : Value := row[index]?.getD .unknown

theorem Conforms.field_eq (h : Row.Conforms row types) {index : Nat} {type : DataType}
    (htype : fieldType types index = .ok type) :
    Row.field row index = .ok (value row index) ∧ (value row index).Conforms type := by
  obtain ⟨v, hv, hconforms⟩ := h.field (getElem?_of_fieldType htype)
  unfold Row.field at hv
  unfold Row.field value
  cases hrow : row[index]? with
  | none =>
    rw [hrow] at hv
    cases hv
  | some w =>
    rw [hrow] at hv
    cases hv
    exact ⟨rfl, hconforms⟩

/-- The order of the keys of two rows. -/
def keyOrder : List SortKey → Row → Row → Ordering
  | [], _, _ => .eq
  | key :: sort, a, b =>
    (key.keyOrder (value a key.index) (value b key.index)).then (keyOrder sort a b)

instance (sort : List SortKey) : Std.TransCmp (keyOrder sort) := by
  induction sort with
  | nil => exact { eq_swap := rfl, isLE_trans := fun _ _ => rfl }
  | cons key sort ih =>
    have heq : keyOrder (key :: sort) =
        compareLex (fun a b => key.keyOrder (value a key.index) (value b key.index))
          (keyOrder sort) := rfl
    have hkey : Std.TransCmp fun a b : Row =>
        key.keyOrder (value a key.index) (value b key.index) :=
      { eq_swap := Std.OrientedCmp.eq_swap, isLE_trans := Std.TransCmp.isLE_trans }
    rw [heq]
    infer_instance

/-- The ordering fields are fields of the input. -/
def FieldsExist (types : List DataType) (sort : List SortKey) : Prop :=
  ∀ key ∈ sort, ∃ type, fieldType types key.index = .ok type

/-- **Rows have an order.** Two conforming rows are ordered as their keys are. -/
theorem order_eq_keyOrder (ha : Row.Conforms a types) (hb : Row.Conforms b types)
    (hsort : FieldsExist types sort) : order sort a b = .ok (keyOrder sort a b) := by
  induction sort with
  | nil => rfl
  | cons key sort ih =>
    obtain ⟨type, htype⟩ := hsort key List.mem_cons_self
    obtain ⟨hfa, hca⟩ := ha.field_eq htype
    obtain ⟨hfb, hcb⟩ := hb.field_eq htype
    rw [order, Answer.bind_of_ok hfa, Answer.bind_of_ok hfb,
      SortKey.order_eq_keyOrder hca hcb, keyOrder]
    cases key.keyOrder (value a key.index) (value b key.index) with
    | eq => exact ih fun key hkey => hsort key (List.mem_cons_of_mem _ hkey)
    | _ => rfl

/-! ## Sorted partitions -/

/-- The rows are sorted: none comes before an earlier one in the ordering. -/
def Sorted (sort : List SortKey) (rows : List Row) : Prop :=
  rows.Pairwise fun a b => order sort a b ≠ .ok .gt

variable {rows : List Row} {i j : Nat}

theorem Sorted.isLE (h : Sorted sort rows) (hrows : ∀ row ∈ rows, Row.Conforms row types)
    (hsort : FieldsExist types sort) (hij : i ≤ j) (hi : rows[i]? = some a)
    (hj : rows[j]? = some b) : (keyOrder sort a b).isLE := by
  rcases Nat.eq_or_lt_of_le hij with rfl | hlt
  · rw [hi] at hj
    cases hj
    exact Std.ReflCmp.isLE_rfl
  · obtain ⟨hi', rfl⟩ := List.getElem?_eq_some_iff.mp hi
    obtain ⟨hj', rfl⟩ := List.getElem?_eq_some_iff.mp hj
    have hne := List.pairwise_iff_getElem.mp h i j hi' hj' hlt
    rw [order_eq_keyOrder (hrows _ (List.getElem_mem hi')) (hrows _ (List.getElem_mem hj'))
      hsort] at hne
    cases horder : keyOrder sort rows[i] rows[j] with
    | gt => exact absurd (by rw [horder]) hne
    | _ => rfl

/-- What is in order is in order along the first ordering field. -/
theorem isLE_of_isLE_cons {key : SortKey} (h : (keyOrder (key :: sort) a b).isLE) :
    (key.keyOrder (value a key.index) (value b key.index)).isLE := by
  rw [keyOrder] at h
  cases hkey : key.keyOrder (value a key.index) (value b key.index) with
  | gt =>
    rw [hkey] at h
    cases h
  | _ => rfl

end Row

end SqlWindow
