import Std.Data.TreeMap.Basic
import SqlWindow.Value.Order

set_option autoImplicit false

/-! # The order of values

`Value.order` is written by cases on two variants. Here it is seen through keys: every value has
a key of numbers and a text, keys are compared part by part, and two values compare as their
keys do unless one of them is an integer and the other a float. That one exception is where the
order goes through a rounded number; columns of one type do not meet it, so on them the order is
a total preorder, and its equality is `Value.same` everywhere.
-/

namespace SqlWindow

/-! ## Doubles and timestamps -/

namespace Double

theorem order_self (x : Double) : x.order x = .eq := by
  unfold order
  cases x.isNaN <;> simp

theorem order_swap (x y : Double) : y.order x = (x.order y).swap := by
  unfold order
  cases x.isNaN <;> cases y.isNaN <;> try rfl
  exact Std.OrientedOrd.eq_swap

/-- Two doubles are the same number when neither is before the other. -/
theorem same_iff_order_eq (x y : Double) : x.same y = true ↔ x.order y = .eq := by
  unfold same order
  cases x.isNaN <;> cases y.isNaN <;> simp

end Double

namespace Timestamp

theorem order_eq_iff (a b : Timestamp) : a.order b = .eq ↔ a = b := by
  obtain ⟨seconds, nanos, _⟩ := a
  obtain ⟨seconds', nanos', _⟩ := b
  simp [order, Ordering.then_eq_eq]

theorem order_swap (a b : Timestamp) : b.order a = (a.order b).swap := by
  unfold order
  rw [Ordering.swap_then, ← Std.OrientedOrd.eq_swap, ← Std.OrientedOrd.eq_swap]

end Timestamp

namespace Value

/-! ## Symmetry and equality -/

theorem order_self (v : Value) : v.order v = .eq := by
  cases v with
  | null => rfl
  | integer i => simp [order]
  | float x => exact x.order_self
  | text s => simp [order]
  | boolean b => simp [order]
  | timestamp t => exact (t.order_eq_iff t).mpr rfl
  | json s => simp [order]

/-- The order of two values the other way round. -/
theorem order_swap (v w : Value) : w.order v = (v.order w).swap := by
  cases v <;> cases w <;>
    first
    | rfl
    | exact Double.order_swap _ _
    | exact Timestamp.order_swap _ _
    | exact Std.OrientedOrd.eq_swap

/-- Two values are the same when neither is before the other. -/
theorem same_iff_order_eq (v w : Value) : v.same w = true ↔ v.order w = .eq := by
  cases v <;> cases w
  case integer.float i x =>
    show x.same (Double.ofInt64 i) = true ↔ (Double.ofInt64 i).order x = .eq
    rw [Double.same_iff_order_eq, Double.order_swap, Ordering.swap_eq_eq]
  case integer.integer i j =>
    show (i == j) = true ↔ compare i.toInt j.toInt = .eq
    rw [beq_iff_eq, Std.LawfulEqOrd.compare_eq_iff_eq, Int64.toInt_inj]
  all_goals
    first
    | exact Double.same_iff_order_eq _ _
    | simp [same, order, rank, Timestamp.order_eq_iff]

/-- Only NULL is the same as NULL. -/
theorem isNull_eq_of_same {v w : Value} (h : v.same w = true) : v.isNull = w.isNull := by
  cases v <;> cases w <;> first | rfl | cases h

/-! ## Keys -/

/-- What a value is compared by: the place of its variant, two numbers, and a text. -/
def key : Value → Nat × Int × Int × String
  | null _ => (0, 0, 0, "")
  | boolean b => (1, if b then 1 else 0, 0, "")
  | integer i => (2, 0, i.toInt * Double.unitsPerOne, "")
  | float x => (2, if x.isNaN then 1 else 0, if x.isNaN then 0 else x.units, "")
  | text s => (3, 0, 0, s)
  | timestamp t => (4, t.seconds, t.nanos, "")
  | json s => (5, 0, 0, s)

/-- The order of keys. -/
def keyOrder : Value → Value → Ordering :=
  compareLex (compareOn fun v => v.key.1)
    (compareLex (compareOn fun v => v.key.2.1)
      (compareLex (compareOn fun v => v.key.2.2.1) (compareOn fun v => v.key.2.2.2)))

instance : Std.TransCmp keyOrder := by
  unfold keyOrder
  infer_instance

/-- One value is an integer and the other a float. -/
def Mixed : Value → Value → Prop
  | integer _, float _ | float _, integer _ => True
  | _, _ => False

theorem unitsPerOne_pos : 0 < (Double.unitsPerOne : Int) := by
  decide

theorem compare_mul_right {a b c : Int} (hc : 0 < c) : compare (a * c) (b * c) = compare a b := by
  rcases Int.lt_trichotomy a b with h | h | h
  · rw [Std.compare_eq_lt.mpr h, Std.compare_eq_lt.mpr (Int.mul_lt_mul_of_pos_right h hc)]
  · rw [h]
    simp
  · rw [Std.compare_eq_gt.mpr h, Std.compare_eq_gt.mpr (Int.mul_lt_mul_of_pos_right h hc)]

theorem compare_natCast (a b : Nat) : compare (a : Int) (b : Int) = compare a b := by
  simp only [Int.compare_eq_ite_lt, Nat.compare_eq_ite_lt, Int.ofNat_lt]

theorem key_fst (v : Value) : v.key.1 = v.rank := by
  cases v <;> rfl

/-- Variants at different places compare by their places, whatever they hold. -/
theorem order_of_rank_ne {v w : Value} (h : v.rank ≠ w.rank) :
    v.order w = compare v.rank w.rank := by
  cases v <;> cases w <;> first | rfl | exact absurd rfl h

theorem keyOrder_of_rank_ne {v w : Value} (h : v.rank ≠ w.rank) :
    keyOrder v w = compare v.rank w.rank := by
  unfold keyOrder compareLex compareOn
  simp only [key_fst]
  cases hc : compare v.rank w.rank with
  | eq => exact absurd (Std.LawfulEqOrd.compare_eq_iff_eq.mp hc) h
  | _ => rfl

/-- **Values compare as their keys do**, unless one is an integer and the other a float. -/
theorem order_eq_keyOrder {v w : Value} (h : ¬Mixed v w) : v.order w = keyOrder v w := by
  by_cases hrank : v.rank ≠ w.rank
  · rw [order_of_rank_ne hrank, keyOrder_of_rank_ne hrank]
  replace hrank := Decidable.not_not.mp hrank
  cases v <;> cases w
  case null.null => rfl
  case integer.integer i j =>
    show compare i.toInt j.toInt = _
    rw [← compare_mul_right unitsPerOne_pos]
    simp [keyOrder, compareLex, compareOn, key]
  case float.float x y =>
    show x.order y = _
    unfold Double.order keyOrder compareLex compareOn key
    cases hx : x.isNaN <;> cases hy : y.isNaN <;> simp [hx, hy] <;> rfl
  case text.text s t => simp [order, keyOrder, compareLex, compareOn, key]
  case boolean.boolean a b => cases a <;> cases b <;> rfl
  case timestamp.timestamp a b =>
    show a.order b = _
    simp [Timestamp.order, keyOrder, compareLex, compareOn, key, compare_natCast]
  case json.json s t => simp [order, keyOrder, compareLex, compareOn, key]
  -- The other pairs are at different places, or the excluded ones.
  all_goals first | exact (h trivial).elim | nomatch hrank

/-! ## Sets of values -/

/-- The order is transitive on the values of a set. -/
def TransitiveOn (S : Value → Prop) : Prop :=
  ∀ ⦃a b c⦄, S a → S b → S c → (a.order b).isLE → (b.order c).isLE → (a.order c).isLE

namespace TransitiveOn

variable {S : Value → Prop} {a b c : Value}

/-- A set on which the order is transitive, as an ordered type. -/
theorem transCmp (h : TransitiveOn S) :
    Std.TransCmp fun a b : { v // S v } => a.1.order b.1 where
  eq_swap := order_swap _ _
  isLE_trans {a b c} hab hbc := h a.2 b.2 c.2 hab hbc

theorem lt_trans (h : TransitiveOn S) (ha : S a) (hb : S b) (hc : S c) (hab : a.order b = .lt)
    (hbc : b.order c = .lt) : a.order c = .lt :=
  have := h.transCmp
  @Std.TransCmp.lt_trans _ _ this ⟨a, ha⟩ ⟨b, hb⟩ ⟨c, hc⟩ hab hbc

theorem order_congr_right (h : TransitiveOn S) (ha : S a) (hb : S b) (hc : S c)
    (hbc : b.order c = .eq) : a.order b = a.order c :=
  have := h.transCmp
  @Std.TransCmp.congr_right _ _ this ⟨a, ha⟩ ⟨b, hb⟩ ⟨c, hc⟩ hbc

theorem order_congr_left (h : TransitiveOn S) (ha : S a) (hb : S b) (hc : S c)
    (hab : a.order b = .eq) : a.order c = b.order c := by
  rw [order_swap c a, order_swap c b, h.order_congr_right hc ha hb hab]

theorem same_congr_right (h : TransitiveOn S) (ha : S a) (hb : S b) (hc : S c)
    (hbc : b.same c = true) : a.same b = a.same c := by
  rw [same_iff_order_eq] at hbc
  rw [Bool.eq_iff_iff, same_iff_order_eq, same_iff_order_eq, h.order_congr_right ha hb hc hbc]

end TransitiveOn

/-! ## Values of one type -/

/-- The value is NULL or of the type. -/
def Conforms (v : Value) (type : DataType) : Prop := v.isNull = true ∨ v.type = type

instance (v : Value) (type : DataType) : Decidable (v.Conforms type) :=
  inferInstanceAs (Decidable (_ ∨ _))

theorem not_mixed_of_conforms {type : DataType} {v w : Value} (hv : v.Conforms type)
    (hw : w.Conforms type) : ¬Mixed v w := by
  intro h
  cases v <;> cases w <;> try exact h
  all_goals
    rcases hv with hv | rfl
    · cases hv
    · rcases hw with hw | hw <;> cases hw

theorem order_eq_keyOrder_of_conforms {type : DataType} {v w : Value} (hv : v.Conforms type)
    (hw : w.Conforms type) : v.order w = keyOrder v w :=
  order_eq_keyOrder (not_mixed_of_conforms hv hw)

/-- In a column of one type the order is transitive. -/
theorem transitiveOn_conforms (type : DataType) : TransitiveOn (Conforms · type) := by
  intro a b c ha hb hc hab hbc
  rw [order_eq_keyOrder_of_conforms ha hb] at hab
  rw [order_eq_keyOrder_of_conforms hb hc] at hbc
  rw [order_eq_keyOrder_of_conforms ha hc]
  exact Std.TransCmp.isLE_trans hab hbc

end Value

end SqlWindow
