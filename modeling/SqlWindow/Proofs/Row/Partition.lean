import SqlWindow.Proofs.Spec.Conforming

set_option autoImplicit false

/-! # Rows of one partition

Two rows are of one partition when their partition fields are pairwise the same. Integers and
floats compare through a rounded number, so among rows of all kinds this is not transitive; among
rows that conform to the types of the input fields it is an equivalence.
-/

namespace SqlWindow

namespace Row

variable {fields : List Nat} {a b c : Row} {types : List DataType}

/-- Rows of one partition have the same value in each partition field. -/
theorem samePartition_eq_true_iff :
    samePartition fields a b = .ok true ↔
      ∀ index ∈ fields, ∃ x y, field a index = .ok x ∧ field b index = .ok y ∧
        x.same y = true := by
  induction fields with
  | nil => simp [samePartition, pure, Except.pure]
  | cons index fields ih =>
    rw [List.forall_mem_cons, ← ih, samePartition]
    simp only [Answer.bind_eq_ok_iff]
    constructor
    · rintro ⟨x, hx, y, hy, hrest⟩
      by_cases hsame : x.same y = true
      · rw [if_pos hsame] at hrest
        exact ⟨⟨x, y, hx, hy, hsame⟩, hrest⟩
      · rw [if_neg hsame] at hrest
        cases hrest
    · rintro ⟨⟨x, y, hx, hy, hsame⟩, hrest⟩
      exact ⟨x, hx, y, hy, by rw [if_pos hsame, hrest]⟩

/-- A row is of its own partition. -/
theorem Conforms.samePartition_self (h : Row.Conforms a types)
    (hfields : ∀ index ∈ fields, ∃ type, fieldType types index = .ok type) :
    Row.samePartition fields a a = .ok true := by
  refine samePartition_eq_true_iff.mpr ?_
  intro index hindex
  obtain ⟨type, htype⟩ := hfields index hindex
  obtain ⟨v, hv, -⟩ := h.field (getElem?_of_fieldType htype)
  exact ⟨v, v, hv, hv, (v.same_iff_order_eq v).mpr v.order_self⟩

theorem samePartition_symm (h : samePartition fields a b = .ok true) :
    samePartition fields b a = .ok true := by
  refine samePartition_eq_true_iff.mpr ?_
  intro index hindex
  obtain ⟨x, y, hx, hy, hsame⟩ := samePartition_eq_true_iff.mp h index hindex
  refine ⟨y, x, hy, hx, ?_⟩
  rw [Value.same_iff_order_eq] at hsame ⊢
  rw [Value.order_swap, hsame]
  rfl

/-- **Rows of one partition with the same row** are of one partition, when all three conform to
the types of the input fields. -/
theorem Conforms.samePartition_trans (ha : Row.Conforms a types) (hb : Row.Conforms b types)
    (hc : Row.Conforms c types)
    (hfields : ∀ index ∈ fields, ∃ type, fieldType types index = .ok type)
    (hab : Row.samePartition fields a b = .ok true)
    (hbc : Row.samePartition fields b c = .ok true) :
    Row.samePartition fields a c = .ok true := by
  rw [samePartition_eq_true_iff] at hab hbc ⊢
  intro index hindex
  obtain ⟨type, htype⟩ := hfields index hindex
  obtain ⟨x, hx, hxtype⟩ := ha.field (getElem?_of_fieldType htype)
  obtain ⟨y, hy, hytype⟩ := hb.field (getElem?_of_fieldType htype)
  obtain ⟨z, hz, hztype⟩ := hc.field (getElem?_of_fieldType htype)
  have hxy : x.order y = .eq := by
    obtain ⟨x', y', hx', hy', hsame⟩ := hab index hindex
    rw [hx] at hx'
    rw [hy] at hy'
    cases hx'
    cases hy'
    exact (x.same_iff_order_eq y).mp hsame
  have hyz : y.order z = .eq := by
    obtain ⟨y', z', hy', hz', hsame⟩ := hbc index hindex
    rw [hy] at hy'
    rw [hz] at hz'
    cases hy'
    cases hz'
    exact (y.same_iff_order_eq z).mp hsame
  refine ⟨x, z, hx, hz, (x.same_iff_order_eq z).mpr ?_⟩
  have htransitive := Value.transitiveOn_conforms type
  rw [← htransitive.order_congr_right hxtype hytype hztype hyz, hxy]

end Row

end SqlWindow
