import Mathlib.Data.List.Induction
import SqlWindow.Function.Accumulator

set_option autoImplicit false

/-! # Calls on one function

Values come into a function and are taken back from it in any order, and calls that fail count.
`behind` is the function that such a history leaves, `held` are the values that came in and have
not gone out again. A value that is taken back takes out the first value held that is alike. What
is alike is left open: a value is held as it is, or as any value that is the same number.
-/

namespace SqlWindow

/-- A call that brings a function a value. -/
inductive ValueCall where
  | accumulate (v : Value)
  | retract (v : Value)
deriving DecidableEq, Repr

namespace ValueCall

variable {σ : Type}

/-- The value that comes in or goes out. -/
def value : ValueCall → Value
  | accumulate v | retract v => v

/-- Makes a call on a function. -/
def perform : ValueCall → Action (Accumulator σ) Unit
  | accumulate v => modify (Accumulator.accumulate v)
  | retract v => Accumulator.retract v

/-- The function behind some calls, also behind those that fail. -/
def behind (a : Accumulator σ) (calls : List ValueCall) : Accumulator σ :=
  calls.foldl (fun a call => (call.perform.outcome a).2) a

/-- What the calls answer. -/
def answers (a : Accumulator σ) : List ValueCall → List (Except Error Unit)
  | [] => []
  | call :: calls => (call.perform.outcome a).1 :: answers (call.perform.outcome a).2 calls

/-- All calls succeed. -/
def NoneFails (a : Accumulator σ) (calls : List ValueCall) : Prop :=
  ∀ answer ∈ answers a calls, answer = .ok ()

/-- The values held one call later. -/
def next (alike : Value → Value → Bool) (vs : List Value) : ValueCall → List Value
  | accumulate v => vs ++ [v]
  | retract v => vs.eraseP (alike v)

/-- The values held behind some calls. -/
def held (alike : Value → Value → Bool) (calls : List ValueCall) : List Value :=
  calls.foldl (next alike) []

/-- Every value that is taken back is held then, NULL aside. -/
inductive Finds (alike : Value → Value → Bool) : List ValueCall → Prop where
  | nil : Finds alike []
  | accumulate {calls : List ValueCall} (v : Value) (h : Finds alike calls) :
      Finds alike (calls ++ [accumulate v])
  | retract {calls : List ValueCall} (v : Value) (h : Finds alike calls)
      (hheld : v.isNull = false → ∃ w ∈ held alike calls, alike v w = true) :
      Finds alike (calls ++ [retract v])

/-- The call brings in a value that is the same as this one. -/
def takesIn (v : Value) : ValueCall → Bool
  | accumulate w => v.same w
  | retract _ => false

/-- The call takes a value back that is the same as this one. -/
def takesBack (v : Value) : ValueCall → Bool
  | accumulate _ => false
  | retract w => v.same w

/-- The value came in when none that is the same was held, and ever since one is. -/
def Opens (alike : Value → Value → Bool) (calls : List ValueCall) (v : Value) : Prop :=
  ∃ before after, calls = before ++ accumulate v :: after ∧
    (¬∃ w ∈ held alike before, v.same w = true) ∧
    ∀ middle, middle <+: after →
      ∃ w ∈ held alike (before ++ accumulate v :: middle), v.same w = true

/-! ## One call more -/

variable {a : Accumulator σ} {alike : Value → Value → Bool} {calls : List ValueCall}
  {call : ValueCall} {vs : List Value} {v : Value}

theorem behind_concat :
    behind a (calls ++ [call]) = (call.perform.outcome (behind a calls)).2 :=
  List.foldl_append

theorem held_concat : held alike (calls ++ [call]) = next alike (held alike calls) call :=
  List.foldl_append

theorem answers_concat :
    answers a (calls ++ [call]) =
      answers a calls ++ [(call.perform.outcome (behind a calls)).1] := by
  induction calls generalizing a with
  | nil => rfl
  | cons first calls ih =>
    rw [List.cons_append, answers, ih]
    rfl

theorem forall_value_concat_iff {S : Value → Prop} :
    (∀ c ∈ calls ++ [call], S c.value) ↔ (∀ c ∈ calls, S c.value) ∧ S call.value := by
  rw [List.forall_mem_append, List.forall_mem_singleton]

theorem noneFails_nil : NoneFails a [] := by
  intro answer hmem
  cases hmem

theorem NoneFails.concat (h : NoneFails a calls)
    (hok : (call.perform.outcome (behind a calls)).1 = .ok ()) : NoneFails a (calls ++ [call]) := by
  intro answer hmem
  rw [answers_concat] at hmem
  rcases List.mem_append.mp hmem with hmem | hmem
  · exact h answer hmem
  · rw [List.mem_singleton.mp hmem, hok]

/-- A value that is taken out was alike, and the others stay. -/
theorem exists_perm_eraseP (h : ∃ w ∈ vs, alike v w = true) :
    ∃ w, alike v w = true ∧ vs.Perm (w :: vs.eraseP (alike v)) := by
  obtain ⟨u, hu, halike⟩ := h
  obtain ⟨w, front, back, -, hw, hvs, herase⟩ := List.exists_of_eraseP hu halike
  refine ⟨w, hw, ?_⟩
  rw [herase, hvs]
  exact List.perm_middle

theorem eraseP_eq_self (h : ¬∃ w ∈ vs, alike v w = true) : vs.eraseP (alike v) = vs :=
  List.eraseP_of_forall_not fun w hw halike => h ⟨w, hw, halike⟩

/-- What is held has come in. -/
theorem accumulate_mem_of_mem_held (h : v ∈ held alike calls) : accumulate v ∈ calls := by
  induction calls using List.reverseRecOn with
  | nil => cases h
  | append_singleton calls call ih =>
    rw [held_concat] at h
    cases call with
    | accumulate w =>
      rcases List.mem_append.mp h with h | h
      · exact List.mem_append_left _ (ih h)
      · rw [List.mem_singleton.mp h]
        exact List.mem_append_right _ List.mem_cons_self
    | retract w => exact List.mem_append_left _ (ih (List.mem_of_mem_eraseP h))

/-! ## Counting calls -/

variable {w : Value}

theorem countP_takesIn_accumulate : (calls ++ [accumulate w]).countP (takesIn v) =
    calls.countP (takesIn v) + if v.same w then 1 else 0 := by
  rw [List.countP_append, List.countP_singleton]
  rfl

theorem countP_takesIn_retract :
    (calls ++ [retract w]).countP (takesIn v) = calls.countP (takesIn v) := by
  rw [List.countP_append, List.countP_singleton]
  rfl

theorem countP_takesBack_accumulate :
    (calls ++ [accumulate w]).countP (takesBack v) = calls.countP (takesBack v) := by
  rw [List.countP_append, List.countP_singleton]
  rfl

theorem countP_takesBack_retract : (calls ++ [retract w]).countP (takesBack v) =
    calls.countP (takesBack v) + if v.same w then 1 else 0 := by
  rw [List.countP_append, List.countP_singleton]
  rfl

/-! ## Values that open -/

/-- A value opens when it comes in and none that is the same is held. -/
theorem opens_accumulate (hself : v.same v = true)
    (hheld : ¬∃ w ∈ held alike calls, v.same w = true) :
    Opens alike (calls ++ [accumulate v]) v := by
  refine ⟨calls, [], rfl, hheld, fun middle hmiddle => ?_⟩
  obtain rfl : middle = [] := List.prefix_nil.mp hmiddle
  rw [held_concat]
  exact ⟨v, List.mem_append_right _ List.mem_cons_self, hself⟩

/-- It stays the value that opened as long as a value that is the same is held. -/
theorem Opens.concat (h : Opens alike calls v)
    (hheld : ∃ w ∈ held alike (calls ++ [call]), v.same w = true) :
    Opens alike (calls ++ [call]) v := by
  obtain ⟨before, after, rfl, hnot, hever⟩ := h
  have hsplit : (before ++ accumulate v :: after) ++ [call] =
      before ++ accumulate v :: (after ++ [call]) := by simp
  refine ⟨before, after ++ [call], hsplit, hnot, fun middle hmiddle => ?_⟩
  rcases List.prefix_concat_iff.mp hmiddle with rfl | hmiddle
  · rw [← hsplit]
    exact hheld
  · exact hever middle hmiddle

/-- A value that is the same is still held. -/
theorem Opens.exists_held (h : Opens alike calls v) : ∃ w ∈ held alike calls, v.same w = true := by
  obtain ⟨before, after, rfl, -, hever⟩ := h
  exact hever after (List.prefix_refl after)

end ValueCall

end SqlWindow
