import SqlWindow.Proofs.Double.Mean
import SqlWindow.Proofs.Function.SumOfHeld

set_option autoImplicit false

/-! # AVG of the integers held

AVG divides the sum of the values held by their number, both as doubles. The sum is the one that
SUM keeps, which wraps around at 64 bits so that retracting undoes accumulating. As long as the
exact sum of the integers held fits into 64 bits AVG is not touched by that, even if sums on the way
were larger. Otherwise AVG divides what is left of it, and the quotient is no mean of the integers:
that of twice the greatest integer is negative.

Where the sum fits, the quotient may still lie outside of the integers, for a sum or a number of
values that is no double is rounded before the division. Each of the two moves it by one double at
most.
-/

namespace SqlWindow

/-! ## Sums between bounds -/

namespace Value

/-- A sum of integers lies between as many times the least and the greatest of them. -/
theorem integerSum_bounds {vs : List Value} {lo hi : ℤ}
    (h : ∀ i, integer i ∈ vs → lo ≤ i.toInt ∧ i.toInt ≤ hi) :
    lo * vs.countP isInteger ≤ integerSum vs ∧ integerSum vs ≤ hi * vs.countP isInteger := by
  induction vs with
  | nil => simp [integerSum]
  | cons v vs ih =>
    obtain ⟨hlo, hhi⟩ := ih fun i hi => h i (List.mem_cons_of_mem v hi)
    cases v with
    | integer i =>
      obtain ⟨hilo, hihi⟩ := h i List.mem_cons_self
      have hcount : ((integer i :: vs).countP isInteger : ℤ) = vs.countP isInteger + 1 := by
        rw [List.countP_cons_of_pos rfl, Nat.cast_succ]
      rw [hcount, integerSum, integerPart, mul_add, mul_add, mul_one, mul_one]
      omega
    | _ =>
      show lo * vs.countP isInteger ≤ 0 + integerSum vs ∧ 0 + integerSum vs ≤ _
      rw [zero_add]
      exact ⟨hlo, hhi⟩

end Value

/-! ## Means of 64-bit integers -/

namespace Double

theorem isLE_order_iff {x y : Double} (hx : x.isNaN = false) (hy : y.isNaN = false) :
    (x.order y).isLE = true ↔ x.ordinal ≤ y.ordinal := by
  rw [order_eq_compare_ordinal hx hy]
  exact Std.isLE_compare

/-- A sum of 64 bits, whatever it is, has a mean. -/
theorem isNaN_mean (i : Int64) {n : ℕ} (hn : 0 < n) :
    ((ofInt64 i).div (ofInt n)).isNaN = false := by
  have hbound := natAbs_toInt_le i
  have hlo : -2 ^ 63 * (n : ℤ) ≤ i.toInt := by omega
  have hhi : i.toInt ≤ 2 ^ 63 * (n : ℤ) := by omega
  exact (ordinal_mean hn hbound hlo hhi).1

/-- A mean of integers that lie between two others lies between them, or outside by as many places
as the sum and the number of integers lose on their way to doubles. -/
theorem mean_near {vs : List Value} {sum least greatest : Int64} {count losses : ℕ}
    (hsum : sum.toInt = Value.integerSum vs) (hcount : count = vs.countP Value.isInteger)
    (hpos : 0 < count) (hlosses : losses = loss sum.toInt + loss count)
    (hbounds : ∀ i, .integer i ∈ vs → least ≤ i ∧ i ≤ greatest) :
    let mean := (ofInt64 sum).div (ofInt count)
    (ofInt64 least).ordinal ≤ mean.ordinal + losses ∧
      mean.ordinal ≤ (ofInt64 greatest).ordinal + losses ∧
      (losses = 0 → ((ofInt64 least).order mean).isLE ∧ (mean.order (ofInt64 greatest)).isLE) := by
  intro mean
  have hheld (i : Int64) (hi : .integer i ∈ vs) :
      least.toInt ≤ i.toInt ∧ i.toInt ≤ greatest.toInt := by
    obtain ⟨hleast, hgreatest⟩ := hbounds i hi
    exact ⟨Int64.le_iff_toInt_le.mp hleast, Int64.le_iff_toInt_le.mp hgreatest⟩
  obtain ⟨hlo, hhi⟩ := Value.integerSum_bounds hheld
  rw [← hsum, ← hcount] at hlo hhi
  obtain ⟨hnumber, hlower, hupper⟩ := ordinal_mean hpos (natAbs_toInt_le sum) hlo hhi
  rw [← Nat.cast_add, ← hlosses] at hlower hupper
  refine ⟨hlower, hupper, fun hnothing => ?_⟩
  rw [hnothing, Nat.cast_zero, add_zero] at hlower hupper
  exact ⟨(isLE_order_iff (isFinite_ofInt64 least).isNaN_eq hnumber).mpr hlower,
    (isLE_order_iff hnumber (isFinite_ofInt64 greatest).isNaN_eq).mpr hupper⟩

end Double

/-! ## Histories -/

namespace Accumulator

open RunningSum (AnyFloat AnyInteger)
open ValueCall (behind held Finds NoneFails)

variable {σ : Type} {calls : List ValueCall}

/-- **AVG depends on the integers held.** Behind any history of a new or a reset AVG in which values
are taken back while they are held, and which leaves integers and no float, no call has failed, and
the result is the exact sum of the integers held, wrapped to 64 bits, divided by their number, both
as doubles.

When the exact sum has 64 bits, this is the mean: in the line of doubles it lies outside of the
integers held by no more places than there are numbers among their sum and their number that are no
doubles. So it lies between them when both are doubles, as they are up to `2⁵³`. -/
theorem mean_of_held {start : Accumulator σ} (s : RunningSum)
    (hstart : start = avg {} ∨ start = (avg s).reset) (hcalls : Finds (· == ·) calls)
    (hinteger : AnyInteger (held (· == ·) calls)) (hfloat : ¬AnyFloat (held (· == ·) calls)) :
    let vs := held (· == ·) calls
    let sum := Value.integerSum vs
    let count := vs.countP Value.isInteger
    let losses := Double.loss sum + Double.loss count
    let mean := (Double.ofInt64 (Int64.ofInt sum)).div (Double.ofInt count)
    NoneFails start calls ∧ (behind start calls).result = .float mean ∧ mean.isNaN = false ∧
      (-2 ^ 63 ≤ sum → sum < 2 ^ 63 →
        Double.ofInt64 (Int64.ofInt sum) = Double.ofInt sum ∧
        ∀ least greatest : Int64, (∀ i, .integer i ∈ vs → least ≤ i ∧ i ≤ greatest) →
          (Double.ofInt64 least).ordinal ≤ mean.ordinal + losses ∧
          mean.ordinal ≤ (Double.ofInt64 greatest).ordinal + losses ∧
          (losses = 0 → ((Double.ofInt64 least).order mean).isLE ∧
            (mean.order (Double.ofInt64 greatest)).isLE)) ∧
      (|sum| ≤ 2 ^ 53 → count ≤ 2 ^ 53 → losses = 0) := by
  obtain rfl : start = avg {} := hstart.elim id id
  obtain ⟨t, ht, hholds, hnone⟩ := (keepsSum_avg (σ := σ)).exists_behind hcalls
  intro vs sum count losses mean
  have hcount : 0 < count := List.countP_pos_iff.mpr hinteger
  have hresult : (behind (avg {} : Accumulator σ) calls).result = t.mean :=
    congrArg Accumulator.result ht
  refine ⟨hnone, hresult.trans (hholds.mean_of_anyInteger hinteger hfloat),
    Double.isNaN_mean _ hcount, ?_, ?_⟩
  · intro hmin hmax
    have hexact : (Int64.ofInt sum).toInt = sum := Int64.toInt_ofInt_of_le hmin hmax
    refine ⟨by rw [Double.ofInt64, hexact], fun least greatest hbounds => ?_⟩
    exact Double.mean_near hexact rfl hcount (by rw [hexact]) hbounds
  · intro hsum hsmall
    show Double.loss sum + Double.loss count = 0
    rw [Double.loss_eq_zero hsum, Double.loss_eq_zero (by rw [Nat.abs_cast]; omega)]

/-- The integers pass the largest one, a float comes in, and both go out again. -/
def recovered : List ValueCall :=
  [.accumulate (.integer 9223372036854775807), .accumulate (.integer 1),
    .accumulate (.float ⟨0x3fe0000000000000⟩), .accumulate (.integer 4),
    .retract (.integer 9223372036854775807), .retract (.float ⟨0x3fe0000000000000⟩)]

theorem finds_recovered : Finds (· == ·) recovered := by
  have hnil : Finds (· == ·) [] := .nil
  have hlarge := (hnil.accumulate (.integer 9223372036854775807)).accumulate (.integer 1)
  have hfront := (hlarge.accumulate (.float ⟨0x3fe0000000000000⟩)).accumulate (.integer 4)
  have hsmall := hfront.retract (.integer 9223372036854775807) fun _ =>
    ⟨_, by decide, beq_self_eq_true _⟩
  exact hsmall.retract (.float ⟨0x3fe0000000000000⟩) fun _ => ⟨_, by decide, beq_self_eq_true _⟩

theorem mean_of_held_recovered :
    Finds (· == ·) recovered ∧ AnyInteger (held (· == ·) recovered) ∧
      ¬AnyFloat (held (· == ·) recovered) ∧ NoneFails (avg {} : Accumulator Unit) recovered ∧
      (behind (avg {} : Accumulator Unit) recovered).result = .float ⟨0x4004000000000000⟩ ∧
      ((Double.ofInt64 1).order ⟨0x4004000000000000⟩).isLE ∧
      (Double.order ⟨0x4004000000000000⟩ (Double.ofInt64 4)).isLE := by
  have hinteger : AnyInteger (held (· == ·) recovered) := by decide
  have hfloat : ¬AnyFloat (held (· == ·) recovered) := by decide
  have hheld : held (· == ·) recovered = [.integer 1, .integer 4] := by decide
  have hsum : Value.integerSum [.integer 1, .integer 4] = 5 := by decide
  have hcount : [Value.integer 1, .integer 4].countP Value.isInteger = 2 := by decide
  have hmean : (Double.ofInt64 (Int64.ofInt 5)).div (Double.ofInt (2 : ℕ)) =
      ⟨0x4004000000000000⟩ := by
    decide +kernel
  obtain ⟨hnone, hresult, -, hbounds, hlosses⟩ :=
    mean_of_held (σ := Unit) {} (.inl rfl) finds_recovered hinteger hfloat
  rw [hheld, hsum, hcount, hmean] at hresult hbounds
  rw [hheld, hsum, hcount] at hlosses
  obtain ⟨-, hbetween⟩ := hbounds (by decide) (by decide)
  obtain ⟨-, -, hbetween⟩ := hbetween 1 4 fun i hi => by
    rcases List.mem_pair.mp hi with h | h <;> cases h <;> decide
  obtain ⟨hleast, hgreatest⟩ := hbetween (hlosses (by decide) (by decide))
  exact ⟨finds_recovered, hinteger, hfloat, hnone, hresult, hleast, hgreatest⟩

/-- **AVG leaves the range of its integers.** Their sum is rounded to a double, and the mean of
three equal integers is below them; their sum wraps around, and the mean of two is negative. -/
theorem mean_outside_of_held :
    let alike : Value → Value → Bool := (· == ·)
    let thrice := List.replicate 3 (ValueCall.accumulate (.integer 6004799503160662))
    let twice := List.replicate 2 (ValueCall.accumulate (.integer 9223372036854775807))
    Finds alike thrice ∧ Finds alike twice ∧
      held alike thrice = List.replicate 3 (.integer 6004799503160662) ∧
      (behind (avg {} : Accumulator Unit) thrice).result = .float ⟨0x4335555555555555⟩ ∧
      Double.order ⟨0x4335555555555555⟩ (Double.ofInt64 6004799503160662) = .lt ∧
      held alike twice = List.replicate 2 (.integer 9223372036854775807) ∧
      (behind (avg {} : Accumulator Unit) twice).result = .float ⟨0xbff0000000000000⟩ ∧
      Double.order ⟨0xbff0000000000000⟩ (Double.ofInt64 9223372036854775807) = .lt := by
  refine ⟨.accumulate _ (.accumulate _ (.accumulate _ .nil)), .accumulate _ (.accumulate _ .nil),
    ?_⟩
  decide +kernel

end Accumulator

end SqlWindow
