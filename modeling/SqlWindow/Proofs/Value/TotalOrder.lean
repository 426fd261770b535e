import Mathlib.Data.Prod.Lex
import Mathlib.Data.String.Basic
import Mathlib.Data.Sum.Order
import Mathlib.Order.CompletePartialOrder
import SqlWindow.Proofs.Double.Number

set_option autoImplicit false

/-! # The total order in numbers

Every value has a place: NULL in front whatever it stands in for, then booleans, numbers, texts,
timestamps and documents. Among numbers the place is the extended real that an integer or a
double stands for, with NaN on top; elsewhere it is the value itself.

The order of values is the order of their places, with one exception: an integer meets a float as
the double nearest to it. Up to `2⁵³` this is the integer itself. So on values among which no larger
integer stands beside a float, the order is a total preorder, and `Value.same` is its equality.
-/

namespace SqlWindow

namespace Value

open Sum (inlₗ inrₗ)

/-- Where a value stands. -/
noncomputable def place :
    Value → Unit ⊕ₗ Bool ⊕ₗ WithTop EReal ⊕ₗ String ⊕ₗ (ℤ ×ₗ ℕ) ⊕ₗ String
  | null _ => inlₗ ()
  | boolean b => inrₗ (inlₗ b)
  | integer i => inrₗ (inrₗ (inlₗ ((i.toInt : ℝ) : EReal)))
  | float x => inrₗ (inrₗ (inlₗ x.number))
  | text s => inrₗ (inrₗ (inrₗ (inlₗ s)))
  | timestamp t => inrₗ (inrₗ (inrₗ (inrₗ (inlₗ (toLex (t.seconds, t.nanos))))))
  | json s => inrₗ (inrₗ (inrₗ (inrₗ (inrₗ s))))

/-- If one of the values is an integer and the other a float, the integer is not too large to be
one of the doubles. -/
def MeetsExactly : Value → Value → Prop
  | integer i, float _ | float _, integer i => |i.toInt| ≤ 2 ^ 53
  | _, _ => True

theorem MeetsExactly.symm {v w : Value} (h : MeetsExactly v w) : MeetsExactly w v := by
  cases v <;> cases w <;> exact h

/-! ## Order and places -/

theorem order_timestamp_eq_lt_iff (a b : Timestamp) :
    a.order b = .lt ↔ toLex (a.seconds, a.nanos) < toLex (b.seconds, b.nanos) := by
  rw [Prod.Lex.toLex_lt_toLex, Timestamp.order, Ordering.then_eq_lt, compare_lt_iff_lt,
    compare_eq_iff_eq, compare_lt_iff_lt]

theorem order_eq_lt_iff {v w : Value} (h : MeetsExactly v w) :
    v.order w = .lt ↔ v.place < w.place := by
  cases v <;> cases w
  case integer.integer i j => simp [order, place, compare_lt_iff_lt]
  case float.float x y => simp [order, place, Double.order_eq_lt_iff]
  case integer.float i x => simp [order, place, Double.order_eq_lt_iff, Double.number_ofInt64 h]
  case float.integer x i => simp [order, place, Double.order_eq_lt_iff, Double.number_ofInt64 h]
  case text.text s t => simp [order, place, compare_lt_iff_lt]
  case boolean.boolean a b => simp [order, place, compare_lt_iff_lt]
  case timestamp.timestamp a b => simp [order, place, order_timestamp_eq_lt_iff]
  case json.json s t => simp [order, place, compare_lt_iff_lt]
  -- The other pairs are at different places, whatever they hold.
  all_goals simp [order, rank, place, compare_lt_iff_lt]

/-- **The order of values is the order of their places.** -/
theorem order_eq_cmp_place {v w : Value} (h : MeetsExactly v w) :
    v.order w = cmp v.place w.place := by
  have hlt : v.order w = .lt ↔ v.place < w.place := order_eq_lt_iff h
  have hgt : v.order w = .gt ↔ w.place < v.place := by
    rw [← order_eq_lt_iff h.symm, order_swap v w, Ordering.swap_eq_lt]
  cases horder : v.order w with
  | lt => exact ((cmp_eq_lt_iff _ _).mpr (hlt.mp horder)).symm
  | gt => exact ((cmp_eq_gt_iff _ _).mpr (hgt.mp horder)).symm
  | eq =>
    have hle : v.place ≤ w.place := not_lt.mp fun h => by
      rw [hgt.mpr h] at horder
      cases horder
    have hge : w.place ≤ v.place := not_lt.mp fun h => by
      rw [hlt.mpr h] at horder
      cases horder
    exact ((cmp_eq_eq_iff _ _).mpr (le_antisymm hle hge)).symm

theorem isLE_order_iff_place_le {v w : Value} (h : MeetsExactly v w) :
    (v.order w).isLE ↔ v.place ≤ w.place := by
  rw [order_eq_cmp_place h, ← not_lt, ← cmp_eq_gt_iff]
  cases cmp v.place w.place <;> decide

/-! ## Sets of values -/

/-- No integer beyond `2⁵³` stands beside a float. -/
def NoLargeIntegerByFloat (S : Set Value) : Prop :=
  ∀ i x, integer i ∈ S → float x ∈ S → |i.toInt| ≤ 2 ^ 53

theorem NoLargeIntegerByFloat.meetsExactly {S : Set Value} (hS : NoLargeIntegerByFloat S)
    {v w : Value} (hv : v ∈ S) (hw : w ∈ S) : MeetsExactly v w := by
  cases v <;> cases w <;> first | exact hS _ _ hv hw | exact hS _ _ hw hv | exact trivial

theorem NoLargeIntegerByFloat.transitiveOn {S : Set Value} (hS : NoLargeIntegerByFloat S) :
    TransitiveOn (· ∈ S) := by
  intro a b c ha hb hc hab hbc
  rw [isLE_order_iff_place_le (hS.meetsExactly ha hb)] at hab
  rw [isLE_order_iff_place_le (hS.meetsExactly hb hc)] at hbc
  rw [isLE_order_iff_place_le (hS.meetsExactly ha hc)]
  exact hab.trans hbc

/-- **The order of values is a total preorder.** Any two values can be told in order, and neither
is before the other exactly when they are the same. Where no integer beyond `2⁵³` stands beside a
float, it is the order of places, it is transitive, and values that are the same compare alike with
every third. -/
theorem order_total_preorder :
    (∀ a b : Value, a.order b = .eq ↔ a.same b = true) ∧
    (∀ a b : Value, b.order a = (a.order b).swap) ∧
    ∀ S : Set Value, NoLargeIntegerByFloat S →
      (∀ a ∈ S, ∀ b ∈ S, a.order b = cmp a.place b.place) ∧
      (∀ a ∈ S, ∀ b ∈ S, ∀ c ∈ S, (a.order b).isLE → (b.order c).isLE → (a.order c).isLE) ∧
      (∀ a ∈ S, ∀ b ∈ S, a.order b = .eq → ∀ c ∈ S,
        a.order c = b.order c ∧ c.order a = c.order b) := by
  refine ⟨fun a b => (same_iff_order_eq a b).symm, order_swap, fun S hS => ⟨?_, ?_, ?_⟩⟩
  · intro a ha b hb
    exact order_eq_cmp_place (hS.meetsExactly ha hb)
  · intro a ha b hb c hc hab hbc
    exact hS.transitiveOn ha hb hc hab hbc
  · intro a ha b hb hab c hc
    exact ⟨hS.transitiveOn.order_congr_left ha hb hc hab,
      hS.transitiveOn.order_congr_right hc ha hb hab⟩

/-- One of each kind, with both zeros, and the largest integer that may stand beside a float. -/
def oneOfEach : List Value :=
  [.null .text, .boolean true, .float (Double.zero true), .integer 0, .integer 9007199254740992,
    .float ⟨0x4340000000000000⟩, .float (Double.infinity false), .float Double.nan, .text "a",
    .timestamp Timestamp.earliest, .json "1"]

theorem noLargeIntegerByFloat_oneOfEach : NoLargeIntegerByFloat {v | v ∈ oneOfEach} := by
  intro i x hi _
  have hcases : i = 0 ∨ i = 9007199254740992 := by simpa [oneOfEach] using hi
  rcases hcases with rfl | rfl <;> decide

theorem order_total_preorder_oneOfEach :
    NoLargeIntegerByFloat {v | v ∈ oneOfEach} ∧
      (integer 9007199254740992).order (float ⟨0x4340000000000000⟩) = .eq ∧
      ∀ c ∈ oneOfEach,
        (integer 9007199254740992).order c = (float ⟨0x4340000000000000⟩).order c := by
  have hS := noLargeIntegerByFloat_oneOfEach
  have heq : (integer 9007199254740992).order (float ⟨0x4340000000000000⟩) = .eq := by
    decide +kernel
  obtain ⟨-, -, hpreorder⟩ := order_total_preorder
  obtain ⟨-, -, halike⟩ := hpreorder _ hS
  refine ⟨hS, heq, fun c hc => ?_⟩
  exact (halike _ (by simp [oneOfEach]) _ (by simp [oneOfEach]) heq c hc).1

/- The next integer meets this float as its neighbour does, so that three values go round. -/
example : (integer 9007199254740993).order (float ⟨0x4340000000000000⟩) = .eq ∧
    (float ⟨0x4340000000000000⟩).order (integer 9007199254740992) = .eq ∧
    (integer 9007199254740993).order (integer 9007199254740992) = .gt := by
  decide +kernel

end Value

end SqlWindow
