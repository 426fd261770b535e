import SqlWindow.Proofs.Value.Order

set_option autoImplicit false

/-! # Comparison in SQL and the total order

Values are compared in two ways. `Value.order` tells any two values in order. `Value.compare?` is
asked in conditions: it refuses NULL beside a value, values without a common order, and different
documents, and it goes one path for two values of one type and another for an integer beside a
float. Where it answers, on either path, it answers what the total order answers.
-/

namespace SqlWindow

namespace Value

variable {v w : Value}

/-- Two values, none of them NULL, that have no common order: they are of different types that are
not both numeric, or they are different documents. -/
def Incomparable (v w : Value) : Prop :=
  v.isNull = false ∧ w.isNull = false ∧
    ((v.type ≠ w.type ∧ ¬(v.type.isNumeric = true ∧ w.type.isNumeric = true)) ∨
      ∃ s t, v = json s ∧ w = json t ∧ s ≠ t)

/-- What comparison answers: an error for incomparable values, the total order for others. -/
def Compared (v w : Value) (answer : Except Error Ordering) : Prop :=
  (Incomparable v w ∧ answer = .error .incomparableTypes) ∨
    (¬Incomparable v w ∧ answer = .ok (v.order w))

/-! ## NULL -/

theorem compare?_of_isNull_ne (h : v.isNull ≠ w.isNull) :
    v.compare? w = .error .nullComparison := by
  unfold compare?
  cases hv : v.isNull <;> cases hw : w.isNull <;> rw [hv, hw] at h
  case false.true | true.false => rfl
  all_goals exact absurd rfl h

/-- NULL is compared with NULL, whatever types they stand in for. -/
theorem compared_of_isNull (hv : v.isNull = true) (hw : w.isNull = true) :
    Compared v w (v.compare? w) := by
  refine .inr ⟨fun h => ?_, ?_⟩
  · rw [h.1] at hv
    cases hv
  · rw [compare?, hv, hw]
    cases v <;> cases w <;> first | rfl | simp [isNull] at hv hw

/-! ## The two paths -/

/-- Two values of one type are incomparable only as documents. -/
theorem incomparable_iff_of_type_eq (hv : v.isNull = false) (hw : w.isNull = false)
    (htype : v.type = w.type) :
    Incomparable v w ↔ ∃ s t, v = json s ∧ w = json t ∧ s ≠ t := by
  refine ⟨?_, fun h => ⟨hv, hw, .inr h⟩⟩
  rintro ⟨-, -, ⟨hne, -⟩ | h⟩
  · exact absurd htype hne
  · exact h

/-- Two values of different types are comparable only as numbers. -/
theorem incomparable_iff_of_type_ne (hv : v.isNull = false) (hw : w.isNull = false)
    (htype : v.type ≠ w.type) :
    Incomparable v w ↔ ¬(v.type.isNumeric = true ∧ w.type.isNumeric = true) := by
  refine ⟨?_, fun h => ⟨hv, hw, .inl ⟨htype, h⟩⟩⟩
  rintro ⟨-, -, ⟨-, h⟩ | ⟨s, t, rfl, rfl, -⟩⟩
  · exact h
  · exact absurd rfl htype

/-- **One type.** All but different documents are compared as the total order has it. -/
theorem compared_compareSameType? (hv : v.isNull = false) (hw : w.isNull = false)
    (htype : v.type = w.type) : Compared v w (compareSameType? v w) := by
  rw [Compared, incomparable_iff_of_type_eq hv hw htype]
  cases v <;> cases w
  case json.json s t =>
    by_cases hst : s = t
    · refine .inr ⟨?_, ?_⟩
      · rintro ⟨_, _, hs, ht, hne⟩
        exact hne (json.inj hs ▸ json.inj ht ▸ hst)
      · rw [compareSameType?, if_pos hst, (same_iff_order_eq _ _).mp (by simp [same, hst])]
    · exact .inl ⟨⟨s, t, rfl, rfl, hst⟩, if_neg hst⟩
  -- values of one other variant are never refused, and one type has one variant beside NULL
  all_goals
    first
    | refine .inr ⟨?_, rfl⟩
      rintro ⟨_, _, hjson, -⟩
      cases hjson
    | simp [isNull, type] at hv hw htype

/-- **Two types.** Only an integer and a float are compared, as the doubles they are or come
nearest to. -/
theorem compared_of_type_ne (hv : v.isNull = false) (hw : w.isNull = false)
    (htype : v.type ≠ w.type) : Compared v w (v.compare? w) := by
  rw [Compared, incomparable_iff_of_type_ne hv hw htype, compare?, hv, hw, if_neg nofun,
    if_neg htype]
  by_cases hnumeric : v.type.isNumeric = true ∧ w.type.isNumeric = true
  · -- of two types these are an integer and a float, in either order
    refine .inr ⟨fun h => h hnumeric, ?_⟩
    cases v <;> cases w <;>
      first
      | rfl
      | simp [isNull, type, DataType.isNumeric] at hv hw htype hnumeric
  · refine .inl ⟨hnumeric, ?_⟩
    cases v.toDouble? <;> cases w.toDouble? <;> try rfl
    exact if_neg (by rwa [Bool.and_eq_true])

/-! ## All values -/

theorem compared_compare? (h : v.isNull = w.isNull) : Compared v w (v.compare? w) := by
  cases hw : w.isNull with
  | true => exact compared_of_isNull (h.trans hw) hw
  | false =>
    have hv := h.trans hw
    by_cases htype : v.type = w.type
    · have hpath : v.compare? w = compareSameType? v w := by
        rw [compare?, hv, hw, if_neg nofun, if_pos htype]
      rw [hpath]
      exact compared_compareSameType? hv hw htype
    · exact compared_of_type_ne hv hw htype

/-- **Comparison in SQL is the total order, where it answers.** It fails for NULL beside a value
and for incomparable values, and for nothing else. When it succeeds, its answer is that of the total
order, and it is equality exactly for values that are the same. -/
theorem comparison_agrees_with_order (v w : Value) :
    (∀ e, v.compare? w = .error e ↔
      (v.isNull ≠ w.isNull ∧ e = .nullComparison) ∨
        (Incomparable v w ∧ e = .incomparableTypes)) ∧
      ∀ o, v.compare? w = .ok o → o = v.order w ∧ (o = .eq ↔ v.same w = true) := by
  by_cases hnull : v.isNull = w.isNull
  · rcases compared_compare? hnull with ⟨hrefused, h⟩ | ⟨hnot, h⟩
    · rw [h]
      refine ⟨fun e => ?_, nofun⟩
      simp [hnull, hrefused, eq_comm]
    · rw [h]
      refine ⟨fun e => by simp [hnull, hnot], fun o ho => ?_⟩
      cases ho
      exact ⟨rfl, (same_iff_order_eq v w).symm⟩
  · have hnot : ¬Incomparable v w := fun h => hnull (h.1.trans h.2.1.symm)
    rw [compare?_of_isNull_ne hnull]
    refine ⟨fun e => ?_, nofun⟩
    simp [hnull, hnot, eq_comm]

/-- An integer and the float it rounds to are told equal; of different documents, and of NULL beside
one, nothing is told. -/
theorem comparison_agrees_with_order_rounded :
    ((integer 9007199254740993).compare? (float ⟨0x4340000000000000⟩) = .ok .eq ∧
      (integer 9007199254740993).order (float ⟨0x4340000000000000⟩) = .eq ∧
      (integer 9007199254740993).same (float ⟨0x4340000000000000⟩) = true) ∧
    (json "1").compare? (json "2") = .error .incomparableTypes ∧
    (null .json).compare? (json "1") = .error .nullComparison := by
  have hrounded : (Double.ofInt64 9007199254740993).order ⟨0x4340000000000000⟩ = .eq := by
    decide +kernel
  have hok : (integer 9007199254740993).compare? (float ⟨0x4340000000000000⟩) = .ok .eq :=
    congrArg Except.ok hrounded
  obtain ⟨horder, hsame⟩ := (comparison_agrees_with_order _ _).2 _ hok
  refine ⟨⟨hok, horder.symm, hsame.mp rfl⟩, ?_, ?_⟩
  · exact ((comparison_agrees_with_order _ _).1 _).mpr
      (.inr ⟨⟨rfl, rfl, .inr ⟨"1", "2", rfl, rfl, by decide⟩⟩, rfl⟩)
  · exact ((comparison_agrees_with_order _ _).1 _).mpr (.inl ⟨nofun, rfl⟩)

end Value

end SqlWindow
