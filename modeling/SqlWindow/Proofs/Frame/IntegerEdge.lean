import SqlWindow.Proofs.Frame.Edge

set_option autoImplicit false

/-! # RANGE edges on integers

Along a field of 64-bit integers, an edge at a whole distance could be told by the difference
between the candidate's key and the current one. The difference need not fit in 64 bits, so the
edge is computed the other way round: the current key is moved by the distance, stopping at the
end of the range, and the candidate is compared with the key it comes to. This module says in
unbounded integers what is admitted. The difference decides, but where the move may have stopped:
the integer at that end of the range is admitted at any distance.
-/

namespace SqlWindow

namespace SortKey

/-! ## Integers along an ordering field -/

/-- The sign of growing integers along an ordering field. -/
def direction (key : SortKey) : Int := if key.ascending then 1 else -1

/-- The first of all 64-bit integers along an ordering field. -/
def firstInteger (key : SortKey) : Int64 :=
  if key.ascending then Int64.minValue else Int64.maxValue

/-- The last of all 64-bit integers along an ordering field. -/
def lastInteger (key : SortKey) : Int64 :=
  if key.ascending then Int64.maxValue else Int64.minValue

/-- The distance that a literal counts. A descending field is counted along by the literal's
opposite; the least integer has none and counts as the integer above it. -/
def counted (key : SortKey) (o : Int64) : Int :=
  if key.ascending then o.toInt else max o.toInt (-Int64.maxValue.toInt)

/-- What a literal moves the current key by. -/
def step (key : SortKey) (o : Int64) : Int64 :=
  if key.ascending then o else Int64.ofIntClamp (-o.toInt)

variable {key : SortKey} {a b c x o : Int64} {n : Int}

/-- The two directions, ascending and descending. -/
theorem direction_cases (key : SortKey) :
    (key.ascending = true ∧ key.direction = 1 ∧ key.firstInteger = Int64.minValue ∧
        key.lastInteger = Int64.maxValue) ∨
      (key.ascending = false ∧ key.direction = -1 ∧ key.firstInteger = Int64.maxValue ∧
        key.lastInteger = Int64.minValue) := by
  unfold direction firstInteger lastInteger
  cases key.ascending with
  | true => exact .inl ⟨rfl, rfl, rfl, rfl⟩
  | false => exact .inr ⟨rfl, rfl, rfl, rfl⟩

theorem toInt_step (key : SortKey) (o : Int64) :
    (key.step o).toInt = key.direction * key.counted o := by
  have hmin : Int64.minValue.toInt = -9223372036854775808 := by decide
  have hmax : Int64.maxValue.toInt = 9223372036854775807 := by decide
  have hlow := o.minValue_le_toInt
  have hhigh := o.toInt_le
  unfold step counted
  obtain ⟨hascending, hdirection, -⟩ | ⟨hascending, hdirection, -⟩ := key.direction_cases
  · rw [hascending, hdirection, if_pos rfl, if_pos rfl]
    omega
  · rw [hascending, hdirection, if_neg Bool.false_ne_true, if_neg Bool.false_ne_true,
      toInt_ofIntClamp]
    omega

theorem isLE_order_integer :
    (key.order (.integer a) (.integer b)).isLE ↔
      key.direction * a.toInt ≤ key.direction * b.toInt := by
  unfold order
  obtain ⟨hascending, hdirection, -⟩ | ⟨hascending, hdirection, -⟩ := key.direction_cases
  · rw [hascending, hdirection, if_pos rfl]
    show (compare a.toInt b.toInt).isLE ↔ _
    rw [Int.isLE_compare]
    omega
  · rw [hascending, hdirection, if_neg Bool.false_ne_true]
    show (compare a.toInt b.toInt).swap.isLE ↔ _
    rw [← Std.OrientedOrd.eq_swap, Int.isLE_compare]
    omega

theorem order_swap (key : SortKey) (v w : Value) : key.order w v = (key.order v w).swap := by
  unfold order
  cases key.ascending with
  | true => exact Value.order_swap v w
  | false => exact congrArg Ordering.swap (Value.order_swap v w)

/-- The integer at a distance behind `c` is not beyond `x`: `x` is this far on, or the last
integer, which no move goes beyond. -/
theorem moved_le_iff :
    key.direction * (Int64.ofIntClamp (c.toInt + key.direction * n)).toInt ≤
        key.direction * x.toInt ↔
      n ≤ key.direction * (x.toInt - c.toInt) ∨ x = key.lastInteger := by
  have hlow := x.minValue_le_toInt
  have hhigh := x.toInt_le
  have hlow' := c.minValue_le_toInt
  have hhigh' := c.toInt_le
  rw [toInt_ofIntClamp, ← Int64.toInt_inj]
  obtain ⟨-, hdirection, -, hlast⟩ | ⟨-, hdirection, -, hlast⟩ := key.direction_cases
  · rw [hdirection, hlast]
    omega
  · rw [hdirection, hlast]
    omega

/-- The integer at a distance behind `c` is not before `x`: `x` is at most this far on, or the
first integer, which no move comes before. -/
theorem le_moved_iff :
    key.direction * x.toInt ≤
        key.direction * (Int64.ofIntClamp (c.toInt + key.direction * n)).toInt ↔
      key.direction * (x.toInt - c.toInt) ≤ n ∨ x = key.firstInteger := by
  have hlow := x.minValue_le_toInt
  have hhigh := x.toInt_le
  have hlow' := c.minValue_le_toInt
  have hhigh' := c.toInt_le
  rw [toInt_ofIntClamp, ← Int64.toInt_inj]
  obtain ⟨-, hdirection, hfirst, -⟩ | ⟨-, hdirection, hfirst, -⟩ := key.direction_cases
  · rw [hdirection, hfirst]
    omega
  · rw [hdirection, hfirst]
    omega

end SortKey

/-! ## The edges of integer literals -/

namespace Edge

variable {side : Side} {key : SortKey} {rest : List SortKey} {o c x : Int64}
variable {current candidate : Row}

theorem isInside_lower_eq_swap (position : Ordering) :
    isInside .lower position = position.swap.isLE := by
  cases position <;> rfl

theorem ofBound_integer (side : Side) (key : SortKey) (rest : List SortKey) (o : Int64) :
    ofBound side (.offset (.integer o)) (key :: rest) =
      .ok ⟨side, .distance key (.integer (key.step o))⟩ := by
  have hplace : EdgePlace.ofBound (.offset (.integer o)) (key :: rest) =
      .ok (.distance key (.integer (key.step o))) := by
    cases hascending : key.ascending with
    | true =>
      simp only [EdgePlace.ofBound, FrameBound.offset, SortKey.step, hascending]
      rfl
    | false =>
      simp only [EdgePlace.ofBound, FrameBound.offset, SortKey.step, hascending, Value.negate]
      rfl
  rw [ofBound, Answer.bind_of_ok hplace]
  rfl

theorem admits_integer {d : Int64} (hc : Row.field current key.index = .ok (.integer c))
    (hx : Row.field candidate key.index = .ok (.integer x)) :
    (Edge.mk side (.distance key (.integer d))).admits current candidate =
      .ok (isInside side (key.order (.integer x)
        (.integer (Int64.ofIntClamp (c.toInt + d.toInt))))) := by
  have hposition : (EdgePlace.distance key (.integer d)).position? current candidate =
      .ok (some (key.order (.integer x) (.integer (Int64.ofIntClamp (c.toInt + d.toInt))))) := by
    rw [EdgePlace.position?, Answer.bind_of_ok hc, Answer.bind_of_ok hx]
    rfl
  exact admits_of_position hposition

/-- **Edges on integers.** Along a field of 64-bit integers the lower edge at a literal distance
admits the candidates that lie this far behind the current key or farther, and the last integer
along the field; the upper edge admits those that do not lie farther, and the first integer. So a
lower edge behind the current row leaves that row out, unless its key is the last integer. -/
theorem admits_integer_literal (hc : Row.field current key.index = .ok (.integer c))
    (hx : Row.field candidate key.index = .ok (.integer x)) :
    (∃ lower, ofBound .lower (.offset (.integer o)) (key :: rest) = .ok lower ∧
      lower.admits current candidate =
        .ok (decide (key.counted o ≤ key.direction * (x.toInt - c.toInt) ∨
          x = key.lastInteger)) ∧
      (0 < o.toInt → lower.admits current current = .ok (decide (c = key.lastInteger)))) ∧
    ∃ upper, ofBound .upper (.offset (.integer o)) (key :: rest) = .ok upper ∧
      upper.admits current candidate =
        .ok (decide (key.direction * (x.toInt - c.toInt) ≤ key.counted o ∨
          x = key.firstInteger)) := by
  have hlower {row : Row} {y : Int64} (hy : Row.field row key.index = .ok (.integer y)) :
      (Edge.mk .lower (.distance key (.integer (key.step o)))).admits current row =
        .ok (decide (key.counted o ≤ key.direction * (y.toInt - c.toInt) ∨
          y = key.lastInteger)) := by
    rw [admits_integer hc hy, isInside_lower_eq_swap, ← SortKey.order_swap, Except.ok.injEq,
      Bool.eq_iff_iff, SortKey.isLE_order_integer, SortKey.toInt_step, SortKey.moved_le_iff,
      decide_eq_true_iff]
  refine ⟨⟨_, ofBound_integer .lower key rest o, hlower hx, ?_⟩,
    _, ofBound_integer .upper key rest o, ?_⟩
  · intro ho
    -- a positive literal counts itself in both directions
    have hcounted : ¬ key.counted o ≤ key.direction * (c.toInt - c.toInt) := by
      rw [Int.sub_self, Int.mul_zero, SortKey.counted]
      split
      · omega
      · omega
    rw [hlower hc, Except.ok.injEq, Bool.eq_iff_iff, decide_eq_true_iff, decide_eq_true_iff,
      or_iff_right hcounted]
  · rw [admits_integer hc hx, isInside_upper, Except.ok.injEq, Bool.eq_iff_iff,
      SortKey.isLE_order_integer, SortKey.toInt_step, SortKey.le_moved_iff, decide_eq_true_iff]

/-- Seen from −1 along a descending field, the least integer reaches up to one below the end. -/
theorem admits_integer_literal_least :
    ∃ lower, ofBound .lower (.offset (.integer Int64.minValue)) [⟨0, false⟩] = .ok lower ∧
      lower.admits [.integer (-1)] [.integer (Int64.maxValue - 1)] = .ok true ∧
      lower.admits [.integer (-1)] [.integer Int64.maxValue] = .ok false := by
  have h (x : Int64) := @admits_integer_literal ⟨0, false⟩ [] Int64.minValue (-1) x
    [.integer (-1)] [.integer x] rfl rfl
  obtain ⟨⟨lower, hlower, hadmits, -⟩, -⟩ := h (Int64.maxValue - 1)
  obtain ⟨⟨lower', hlower', hadmits', -⟩, -⟩ := h Int64.maxValue
  obtain rfl : lower = lower' := Except.ok.inj (hlower.symm.trans hlower')
  refine ⟨lower, hlower, ?_, ?_⟩
  · rw [hadmits]
    exact congrArg Except.ok (by decide)
  · rw [hadmits']
    exact congrArg Except.ok (by decide)

/-- **The ends of the range.** The difference alone does not decide. A lower edge one behind the
greatest integer still admits it. Along a descending field, from −1 back to the greatest integer
is as far as the least literal says, and the edge leaves it out. -/
theorem admits_integer_differs_from_difference :
    ((∃ lower, ofBound .lower (.following 1) [⟨0, true⟩] = .ok lower ∧
        lower.admits [.integer Int64.maxValue] [.integer Int64.maxValue] = .ok true) ∧
      ¬ (1 : Int64).toInt ≤
        SortKey.direction ⟨0, true⟩ * (Int64.maxValue.toInt - Int64.maxValue.toInt)) ∧
    (∃ lower, ofBound .lower (.offset (.integer Int64.minValue)) [⟨0, false⟩] = .ok lower ∧
        lower.admits [.integer (-1)] [.integer Int64.maxValue] = .ok false) ∧
      Int64.minValue.toInt ≤
        SortKey.direction ⟨0, false⟩ * (Int64.maxValue.toInt - (-1 : Int64).toInt) := by
  refine ⟨⟨⟨_, rfl, ?_⟩, by decide⟩, ⟨_, rfl, ?_⟩, by decide⟩
  · rfl
  · rfl

end Edge

end SqlWindow
