import SqlWindow.Proofs.Double.Number
import SqlWindow.Proofs.Value.Shift

set_option autoImplicit false

/-! # Equal values

Values that compare equal need not be identical: the two zeros are equal, so are all NaNs, and so
are NULLs with different hints. Everything else is equal only to itself. A distance leads from
equal values to equal values, so none of these differences comes to light at the end of it.
-/

namespace SqlWindow

namespace Double

variable {x y d : Double}

/-- **Equal doubles** are identical, or NaNs, or zeros. -/
theorem eq_or_of_order_eq (h : x.order y = .eq) :
    x = y ∨ (x.isNaN = true ∧ y.isNaN = true) ∨ (x.magnitude = 0 ∧ y.magnitude = 0) := by
  unfold order at h
  cases hx : x.isNaN <;> cases hy : y.isNaN <;> rw [hx, hy] at h
  · have hunits : x.units = y.units := Std.LawfulEqOrd.compare_eq_iff_eq.mp h
    have hzero : unitsOfMagnitude 0 = 0 := rfl
    -- units of one sign tell the magnitudes apart; of different signs they are zero
    have hinj := strictMono_unitsOfMagnitude.injective
    unfold units at hunits
    by_cases hsign : x.isNegative = y.isNegative
    · refine .inl (eq_of_magnitude_eq hsign (hinj ?_))
      rw [hsign] at hunits
      cases hy : y.isNegative <;> rw [hy] at hunits <;> simpa using hunits
    · have hzeros : unitsOfMagnitude x.magnitude = 0 ∧ unitsOfMagnitude y.magnitude = 0 := by
        cases hx : x.isNegative <;> cases hy : y.isNegative <;> rw [hx, hy] at hunits hsign
        case false.true | true.false =>
          simp only [Bool.false_eq_true, if_false, if_true] at hunits
          omega
        all_goals exact absurd rfl hsign
      exact .inr (.inr ⟨hinj (hzeros.1.trans hzero.symm), hinj (hzeros.2.trans hzero.symm)⟩)
  · cases h
  · cases h
  · exact .inr (.inl ⟨rfl, rfl⟩)

/-- The sign of a zero does not make a sum another number. -/
theorem order_ofUnits (negativeZero negativeZero' : Bool) (u : ℤ) :
    (ofUnits negativeZero u).order (ofUnits negativeZero' u) = .eq := by
  unfold ofUnits
  by_cases hu : u = 0
  · rw [if_pos hu, if_pos hu]
    cases negativeZero <;> cases negativeZero' <;> rfl
  · rw [if_neg hu, if_neg hu]
    exact order_self _

/-- **Equal terms have equal sums.** -/
theorem order_add (h : x.order y = .eq) (d : Double) : (x.add d).order (y.add d) = .eq := by
  rcases eq_or_of_order_eq h with rfl | ⟨hx, hy⟩ | ⟨hx, hy⟩
  · exact order_self _
  · rw [add, add, hx, hy]
    rfl
  · -- both are zero, and the sum is the other term, up to the sign of a zero
    have hzero {z : Double} (hz : z.magnitude = 0) :
        z.isNaN = false ∧ z.isInfinite = false ∧ z.units = 0 := by
      unfold isNaN isInfinite units
      rw [hz]
      exact ⟨rfl, rfl, by cases z.isNegative <;> rfl⟩
    obtain ⟨hxNaN, hxInfinite, hxUnits⟩ := hzero hx
    obtain ⟨hyNaN, hyInfinite, hyUnits⟩ := hzero hy
    rw [add, add, hxNaN, hyNaN, hxInfinite, hyInfinite, hxUnits, hyUnits]
    cases d.isNaN
    · cases d.isInfinite
      · exact order_ofUnits _ _ _
      · exact order_self d
    · rfl

end Double

namespace Value

variable {x y v w d : Value} {type : DataType}

/-- **Equal values of one type** are identical, or NULLs, or equal floats. -/
theorem eq_or_of_order_eq (hx : x.Conforms type) (hy : y.Conforms type) (h : x.order y = .eq) :
    x = y ∨ (x.isNull = true ∧ y.isNull = true) ∨
      ∃ a b, x = float a ∧ y = float b ∧ a.order b = .eq := by
  have hmixed := not_mixed_of_conforms hx hy
  have hsame := (same_iff_order_eq x y).mpr h
  cases x <;> cases y
  case null.null => exact .inr (.inl ⟨rfl, rfl⟩)
  case float.float a b => exact .inr (.inr ⟨a, b, rfl, rfl, h⟩)
  case integer.float => exact absurd trivial hmixed
  case float.integer => exact absurd trivial hmixed
  -- of one variant they are identical, and equal values are of one variant
  all_goals
    first
    | (simp only [same, beq_iff_eq] at hsame; exact .inl (congrArg _ hsame))
    | cases hsame

/-- **A distance leads from equal values to equal values**: to the same value, or from floats to
equal floats. -/
theorem shift_of_order_eq (hx : x.Conforms type) (hy : y.Conforms type) (h : x.order y = .eq)
    (hnull : x.isNull = false) (d : Value) :
    x.shift d = y.shift d ∨ type = .float ∧
      ∃ a b, x.shift d = .ok (float a) ∧ y.shift d = .ok (float b) ∧ a.order b = .eq := by
  rcases eq_or_of_order_eq hx hy h with rfl | ⟨hxnull, -⟩ | ⟨a, b, rfl, rfl, hab⟩
  · exact .inl rfl
  · rw [hnull] at hxnull
    cases hxnull
  · have htype : type = .float := (hx.resolve_left nofun).symm
    cases d with
    | integer i => exact .inr ⟨htype, _, _, rfl, rfl, Double.order_add hab _⟩
    | float z => exact .inr ⟨htype, _, _, rfl, rfl, Double.order_add hab z⟩
    | _ => exact .inl rfl

end Value

end SqlWindow
