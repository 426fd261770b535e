import SqlWindow.Proofs.Function.Calls
import SqlWindow.Proofs.Function.RunningSum

set_option autoImplicit false

/-! # SUM of the values held

Whatever came into SUM and was taken back, its result depends on the values still held: NULL
without a number among them, their exact sum cut to 64 bits as long as all numbers are integers,
and a float as soon as one of them is. Taking back what is held never fails.

Of the result as a float nothing more is said: what rounding has lost is not found again.
-/

namespace SqlWindow

namespace RunningSum

open Value (integerSum)

/-! ## What a sum says of its values -/

variable {s : RunningSum} {vs ws : List Value}

theorem integerSum_perm (h : vs.Perm ws) : integerSum vs = integerSum ws := by
  induction h with
  | nil => rfl
  | cons v _ ih => rw [integerSum, integerSum, ih]
  | swap v w vs =>
    simp only [integerSum]
    omega
  | trans _ _ ih ih' => rw [ih, ih']

/-- The order of the values does not count. -/
theorem Holds.perm (h : s.Holds vs) (hperm : vs.Perm ws) : s.Holds ws where
  integers := by rw [h.integers, integerSum_perm hperm]
  floatCount := by rw [h.floatCount, hperm.countP_eq]
  count := by rw [h.count, hperm.countP_eq, hperm.countP_eq]
  floats := h.floats

theorem add_other {v : Value} (hinteger : v.isInteger = false) (hfloat : v.isFloat = false) :
    s.add v = s := by
  cases v with
  | integer i => cases hinteger
  | float x => cases hfloat
  | _ => rfl

/-- What is held can be taken back, and so can NULL. -/
theorem Holds.exists_remove_held {v : Value} (h : s.Holds vs)
    (hheld : v.isNull = false → ∃ w ∈ vs, (v == w) = true) :
    ∃ t, s.remove v = .ok t ∧ t.Holds (vs.eraseP (v == ·)) := by
  by_cases hfound : ∃ w ∈ vs, (v == w) = true
  · obtain ⟨w, hw, hperm⟩ := ValueCall.exists_perm_eraseP hfound
    rw [← eq_of_beq hw] at hperm
    exact (h.perm hperm).remove
  · rw [ValueCall.eraseP_eq_self hfound]
    refine ⟨s, ?_, h⟩
    -- Only NULL is taken back without being held, and it does not count.
    cases v with
    | null type => exact remove_other rfl rfl
    | _ => exact absurd (hheld rfl) hfound

end RunningSum

/-! ## Histories -/

namespace Accumulator

open RunningSum (AnyFloat AnyInteger)
open ValueCall (behind held Finds NoneFails)

variable {σ : Type} {calls : List ValueCall}

/-- The function keeps a running sum and nothing else. -/
structure KeepsSum (wrap : RunningSum → Accumulator σ) : Prop where
  accumulate (v : Value) (s : RunningSum) : (wrap s).accumulate v = wrap (s.add v)
  retract {v : Value} {s t : RunningSum} (h : s.remove v = .ok t) :
    Accumulator.retract v (wrap s) = .ok () (wrap t)

theorem keepsSum_sum : KeepsSum (sum : RunningSum → Accumulator σ) where
  accumulate _ _ := rfl
  retract h := by rw [Accumulator.retract, h]

theorem keepsSum_avg : KeepsSum (avg : RunningSum → Accumulator σ) where
  accumulate _ _ := rfl
  retract h := by rw [Accumulator.retract, h]

/-- **A history of a running sum.** It ends with a sum of the values held, and no call has
failed. -/
theorem KeepsSum.exists_behind {wrap : RunningSum → Accumulator σ} (hwrap : KeepsSum wrap)
    (h : Finds (· == ·) calls) :
    ∃ s, behind (wrap {}) calls = wrap s ∧ s.Holds (held (· == ·) calls) ∧
      NoneFails (wrap {}) calls := by
  induction h with
  | nil => exact ⟨{}, rfl, RunningSum.holds_nil, ValueCall.noneFails_nil⟩
  | @accumulate calls v _ ih =>
    obtain ⟨s, hs, hholds, hnone⟩ := ih
    refine ⟨s.add v, ?_, ?_, hnone.concat rfl⟩
    · rw [ValueCall.behind_concat, hs]
      exact hwrap.accumulate v s
    · rw [ValueCall.held_concat]
      exact hholds.add v
  | @retract calls v _ hheld ih =>
    obtain ⟨s, hs, hholds, hnone⟩ := ih
    obtain ⟨t, ht, htholds⟩ := hholds.exists_remove_held hheld
    have houtcome : (ValueCall.retract v).perform.outcome (wrap s) = (.ok (), wrap t) := by
      rw [Action.outcome, ValueCall.perform, hwrap.retract ht]
    rw [← hs] at houtcome
    refine ⟨t, ?_, ?_, hnone.concat (by rw [houtcome])⟩
    · rw [ValueCall.behind_concat, houtcome]
    · rw [ValueCall.held_concat]
      exact htholds

/-- **SUM depends on the values held.** Behind any history of a new or a reset SUM in which values
are taken back while they are held, no call has failed, and the result is NULL when no number is
held, the exact sum cut to 64 bits when integers and no floats are, and a float when a float is.
Values that are no numbers change nothing. -/
theorem sum_of_held {start : Accumulator σ} (s : RunningSum)
    (hstart : start = sum {} ∨ start = (sum s).reset) (hcalls : Finds (· == ·) calls) :
    let vs := held (· == ·) calls
    let result := (behind start calls).result
    NoneFails start calls ∧
    (result.isNull = true ↔ ¬AnyInteger vs ∧ ¬AnyFloat vs) ∧
    (result.isInteger = true ↔ AnyInteger vs ∧ ¬AnyFloat vs) ∧
    (result.isInteger = true → result = .integer (Int64.ofInt (Value.integerSum vs))) ∧
    (result.isFloat = true ↔ AnyFloat vs) ∧
    ∀ v : Value, v.isInteger = false → v.isFloat = false →
      (behind start calls).accumulate v = behind start calls ∧
      Accumulator.retract v (behind start calls) = .ok () (behind start calls) := by
  obtain rfl : start = sum {} := hstart.elim id id
  obtain ⟨t, ht, hholds, hnone⟩ := (keepsSum_sum (σ := σ)).exists_behind hcalls
  intro vs result
  have hresult : result = t.total := congrArg Accumulator.result ht
  rw [hresult, ht]
  obtain ⟨hnull, hinteger, hsum, hfloat⟩ := hholds.total_kind
  refine ⟨hnone, hnull, hinteger, hsum, hfloat, ?_⟩
  intro v hnoInteger hnoFloat
  constructor
  · rw [accumulate, RunningSum.add_other hnoInteger hnoFloat]
  · rw [Accumulator.retract, RunningSum.remove_other hnoInteger hnoFloat]

/-- The integers pass the largest one while a float is held, and the float goes out again. -/
def wrapped : List ValueCall :=
  [.accumulate (.integer 9223372036854775807), .accumulate (.float ⟨0x3fe0000000000000⟩),
    .accumulate (.integer 10), .accumulate (.text "a"), .accumulate (.null .float),
    .retract (.float ⟨0x3fe0000000000000⟩)]

theorem finds_wrapped : Finds (· == ·) wrapped := by
  have hnil : Finds (· == ·) [] := .nil
  have hnumbers := ((hnil.accumulate (.integer 9223372036854775807)).accumulate
    (.float ⟨0x3fe0000000000000⟩)).accumulate (.integer 10)
  have hfront := (hnumbers.accumulate (.text "a")).accumulate (.null .float)
  exact hfront.retract (.float ⟨0x3fe0000000000000⟩) fun _ => ⟨_, by decide, beq_self_eq_true _⟩

theorem sum_of_held_wrapped :
    Finds (· == ·) wrapped ∧ NoneFails (sum {} : Accumulator Unit) wrapped ∧
      (behind (sum {} : Accumulator Unit) wrapped).result = .integer (-9223372036854775799) := by
  obtain ⟨hnone, -, hinteger, hsum, -⟩ :=
    sum_of_held (σ := Unit) {} (.inl rfl) finds_wrapped
  have hkind : AnyInteger (held (· == ·) wrapped) ∧ ¬AnyFloat (held (· == ·) wrapped) := by
    decide
  refine ⟨finds_wrapped, hnone, ?_⟩
  rw [hsum (hinteger.mpr hkind)]
  decide

end Accumulator

end SqlWindow
