import SqlWindow.Function.RunningSum
import SqlWindow.Proofs.Double.Mean

set_option autoImplicit false

/-! # What a running sum holds

`RunningSum.Holds s vs` says that `s` counts the integers and the floats among `vs` and that its
integer part is their exact sum, cut to 64 bits. Adding a value and taking one back keep this,
in whatever order it happens; the float part is only known to be zero when no float is held.
This settles what SUM and AVG are of integers.
-/

namespace SqlWindow

namespace Value

def isInteger : Value → Bool
  | integer _ => true
  | _ => false

def isFloat : Value → Bool
  | float _ => true
  | _ => false

/-- What a value contributes to a sum of integers. -/
def integerPart : Value → Int
  | integer i => i.toInt
  | _ => 0

/-- The exact sum of the integers among some values. -/
def integerSum : List Value → Int
  | [] => 0
  | v :: vs => v.integerPart + integerSum vs

theorem integerSum_append (vs ws : List Value) :
    integerSum (vs ++ ws) = integerSum vs + integerSum ws := by
  induction vs with
  | nil => simp [integerSum]
  | cons v vs ih => rw [List.cons_append, integerSum, integerSum, ih, Int.add_assoc]

end Value

namespace RunningSum

open Value (integerSum integerPart integerSum_append)

/-- The sum of the values `vs`. -/
structure Holds (s : RunningSum) (vs : List Value) : Prop where
  integers : s.integers = Int64.ofInt (integerSum vs)
  floatCount : s.floatCount = vs.countP Value.isFloat
  count : s.count = vs.countP Value.isInteger + vs.countP Value.isFloat
  floats : s.floatCount = 0 → s.floats = Double.zero false

theorem holds_nil : Holds {} [] where
  integers := rfl
  floatCount := rfl
  count := rfl
  floats _ := rfl

variable {s : RunningSum} {vs : List Value}

theorem Holds.add (h : s.Holds vs) (v : Value) : (s.add v).Holds (vs ++ [v]) := by
  have hintegers := h.integers
  have hfloatCount := h.floatCount
  have hcount := h.count
  cases v with
  | integer i =>
    refine ⟨?_, ?_, ?_, h.floats⟩
    · show s.integers + i = _
      rw [integerSum_append, Int64.ofInt_add, hintegers]
      simp [integerSum, integerPart]
    · show s.floatCount = _
      simp [Value.isFloat, hfloatCount]
    · show s.count + 1 = _
      simp [Value.isFloat, Value.isInteger, hcount]
      omega
  | float x =>
    refine ⟨?_, ?_, ?_, ?_⟩
    · show s.integers = _
      simp [integerSum_append, integerSum, integerPart, hintegers]
    · show s.floatCount + 1 = _
      simp [Value.isFloat, hfloatCount]
    · show s.count + 1 = _
      simp [Value.isFloat, Value.isInteger, hcount]
      omega
    · intro hzero
      exact absurd hzero (Nat.succ_ne_zero _)
  | _ =>
    refine ⟨?_, ?_, ?_, h.floats⟩
    · show s.integers = _
      simp [integerSum_append, integerSum, integerPart, hintegers]
    · show s.floatCount = _
      simp [Value.isFloat, hfloatCount]
    · show s.count = _
      simp [Value.isFloat, Value.isInteger, hcount]

/-- As long as no float is held, what a sum holds is all there is to it. -/
theorem Holds.eq_of_no_floats {t : RunningSum} (hs : s.Holds vs) (ht : t.Holds vs)
    (hvs : ∀ v ∈ vs, v.isFloat = false) : s = t := by
  have hnone : vs.countP Value.isFloat = 0 := List.countP_eq_zero.mpr fun v hv => by
    rw [hvs v hv]
    exact Bool.false_ne_true
  have hfloats : s.floats = t.floats := by
    rw [hs.floats (hs.floatCount.trans hnone), ht.floats (ht.floatCount.trans hnone)]
  obtain ⟨integers, floats, floatCount, count⟩ := s
  obtain ⟨integers', floats', floatCount', count'⟩ := t
  obtain ⟨rfl, rfl, rfl, -⟩ := hs
  obtain ⟨rfl, rfl, rfl, -⟩ := ht
  exact congrArg (RunningSum.mk _ · _ _) hfloats

theorem remove_integer {i : Int64} {n : Nat} (h : s.count = n + 1) :
    s.remove (.integer i) = .ok { s with integers := s.integers - i, count := n } := by
  obtain ⟨integers, floats, floatCount, count⟩ := s
  cases h
  rfl

theorem remove_float {x : Double} {n : Nat} (h : s.count = n + 1) :
    s.remove (.float x) = .ok { s.removeFloat x with count := n } := by
  obtain ⟨integers, floats, floatCount, count⟩ := s
  cases h
  rfl

theorem remove_other {v : Value} (hinteger : v.isInteger = false) (hfloat : v.isFloat = false) :
    s.remove v = .ok s := by
  obtain ⟨integers, floats, floatCount, count⟩ := s
  cases v with
  | integer i => cases hinteger
  | float x => cases hfloat
  | _ => cases count <;> rfl

/-- A value that is held can be taken back. -/
theorem Holds.remove {v : Value} (h : s.Holds (v :: vs)) :
    ∃ t, s.remove v = .ok t ∧ t.Holds vs := by
  have hintegers := h.integers
  have hfloatCount := h.floatCount
  have hcount := h.count
  cases v with
  | integer i =>
    simp [List.countP_cons, Value.isFloat, Value.isInteger] at hfloatCount hcount
    obtain ⟨n, hn⟩ : ∃ n, s.count = n + 1 := ⟨s.count - 1, by omega⟩
    refine ⟨_, remove_integer hn, ?_, hfloatCount, ?_, h.floats⟩
    · show s.integers - i = _
      rw [hintegers, integerSum, integerPart, Int64.ofInt_add, Int64.ofInt_toInt,
        Int64.add_comm, Int64.add_sub_cancel]
    · show n = _
      omega
  | float x =>
    simp [List.countP_cons, Value.isFloat, Value.isInteger] at hfloatCount hcount
    obtain ⟨n, hn⟩ : ∃ n, s.count = n + 1 := ⟨s.count - 1, by omega⟩
    refine ⟨_, remove_float hn, ?_, ?_, ?_, ?_⟩
    · show s.integers = _
      rw [hintegers]
      show Int64.ofInt (0 + integerSum vs) = _
      rw [Int.zero_add]
    · show s.floatCount - 1 = _
      omega
    · show n = _
      omega
    · exact fun hzero => if_pos hzero
  | _ =>
    refine ⟨s, remove_other rfl rfl, ?_, hfloatCount, hcount, h.floats⟩
    rw [hintegers]
    show Int64.ofInt (0 + integerSum vs) = _
    rw [Int.zero_add]

/-! ## Results -/

/-- Some value is a float. -/
def AnyFloat (vs : List Value) : Prop := ∃ v ∈ vs, v.isFloat = true

/-- Some value is an integer. -/
def AnyInteger (vs : List Value) : Prop := ∃ v ∈ vs, v.isInteger = true

instance : Decidable (AnyFloat vs) :=
  inferInstanceAs (Decidable (∃ v ∈ vs, v.isFloat = true))

instance : Decidable (AnyInteger vs) :=
  inferInstanceAs (Decidable (∃ v ∈ vs, v.isInteger = true))

theorem Holds.floatCount_pos_iff (h : s.Holds vs) : 0 < s.floatCount ↔ AnyFloat vs := by
  rw [h.floatCount, List.countP_pos_iff]
  exact Iff.rfl

theorem Holds.count_pos_iff (h : s.Holds vs) : 0 < s.count ↔ AnyInteger vs ∨ AnyFloat vs := by
  rw [h.count, Nat.add_pos_iff_pos_or_pos, List.countP_pos_iff, List.countP_pos_iff]
  exact Iff.rfl

theorem Holds.total_of_anyFloat (h : s.Holds vs) (hfloat : AnyFloat vs) :
    s.total = .float s.toDouble := by
  have hcount : 0 < s.count := h.count_pos_iff.mpr (.inr hfloat)
  have hfloats : 0 < s.floatCount := h.floatCount_pos_iff.mpr hfloat
  rw [total, if_neg (Nat.ne_of_gt hcount), if_pos hfloats]

theorem Holds.total_of_anyInteger (h : s.Holds vs) (hinteger : AnyInteger vs)
    (hfloat : ¬AnyFloat vs) : s.total = .integer (Int64.ofInt (integerSum vs)) := by
  have hcount : 0 < s.count := h.count_pos_iff.mpr (.inl hinteger)
  rw [total, if_neg (Nat.ne_of_gt hcount),
    if_neg fun hpos => hfloat (h.floatCount_pos_iff.mp hpos), h.integers]

theorem Holds.total_of_none (h : s.Holds vs) (hinteger : ¬AnyInteger vs) (hfloat : ¬AnyFloat vs) :
    s.total = .unknown := by
  have hcount : ¬0 < s.count := fun hpos => (h.count_pos_iff.mp hpos).elim hinteger hfloat
  rw [total, if_pos (by omega)]

/-- The kind of the result, and its value as an integer. -/
theorem Holds.total_kind (h : s.Holds vs) :
    (s.total.isNull = true ↔ ¬AnyInteger vs ∧ ¬AnyFloat vs) ∧
    (s.total.isInteger = true ↔ AnyInteger vs ∧ ¬AnyFloat vs) ∧
    (s.total.isInteger = true → s.total = .integer (Int64.ofInt (integerSum vs))) ∧
    (s.total.isFloat = true ↔ AnyFloat vs) := by
  by_cases hfloat : AnyFloat vs
  · rw [h.total_of_anyFloat hfloat]
    simp [hfloat, Value.isNull, Value.isInteger, Value.isFloat]
  by_cases hinteger : AnyInteger vs
  · rw [h.total_of_anyInteger hinteger hfloat]
    simp [hfloat, hinteger, Value.isNull, Value.isInteger, Value.isFloat]
  · rw [h.total_of_none hinteger hfloat]
    simp [hfloat, hinteger, Value.unknown, Value.isNull, Value.isInteger, Value.isFloat]

/-- The mean of integers, of whatever size. -/
theorem Holds.mean_of_anyInteger (h : s.Holds vs) (hinteger : AnyInteger vs)
    (hfloat : ¬AnyFloat vs) :
    s.mean = .float ((Double.ofInt64 (Int64.ofInt (integerSum vs))).div
      (Double.ofInt (vs.countP Value.isInteger))) := by
  have hcount : 0 < s.count := h.count_pos_iff.mpr (.inl hinteger)
  have hnone : vs.countP Value.isFloat = 0 :=
    Nat.eq_zero_of_not_pos fun hpos => hfloat (List.countP_pos_iff.mp hpos)
  have hfloats : s.floats = Double.zero false := h.floats (h.floatCount.trans hnone)
  rw [mean, if_neg hcount.ne', toDouble, hfloats, h.integers, Double.ofInt64,
    Double.add_zero_ofInt (Double.isFinite_ofInt64 _), h.count, hnone, Nat.add_zero]

theorem Holds.mean_of_none (h : s.Holds vs) (hinteger : ¬AnyInteger vs) (hfloat : ¬AnyFloat vs) :
    s.mean = .unknown := by
  have hcount : ¬0 < s.count := fun hpos => (h.count_pos_iff.mp hpos).elim hinteger hfloat
  rw [mean, if_pos (by omega)]

end RunningSum

end SqlWindow
