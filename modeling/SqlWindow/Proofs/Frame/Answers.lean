import SqlWindow.Frame.Basic
import SqlWindow.Proofs.Frame.Reads
import SqlWindow.Proofs.Frame.Tally

set_option autoImplicit false

/-! # The answers of a frame

A frame is prepared for a partition and then asked for the values of its rows in order.
`Frame.Evaluates rows f₀ v` says that every frame that was built as `f₀`, whatever partitions
it has seen since, answers row `i` of this partition with `v i` and never with an error. That a
frame does so is shown by an invariant: one that holds of the prepared frame and that the answer
to each row leads on to the next.
-/

namespace SqlWindow

/-! ## Asking row by row -/

section AnswersFrom

variable {φ α : Type} {step : Nat → Row → Action (φ × RowStore) α} {rows : List Row}
  {v w : Nat → α} {i : Nat} {f : φ}

/-- From row `i` on, the steps answer row `j` of the partition with `v j`. -/
inductive AnswersFrom (step : Nat → Row → Action (φ × RowStore) α) (rows : List Row)
    (v : Nat → α) : Nat → φ → Prop where
  | done {i : Nat} {f : φ} (hi : rows.length ≤ i) : AnswersFrom step rows v i f
  | row {i : Nat} {f g : φ} {row : Row} (hrow : rows[i]? = some row)
      (hread : Reads rows (step i row) f (v i) g) (hrest : AnswersFrom step rows v (i + 1) g) :
      AnswersFrom step rows v i f

theorem AnswersFrom.congr (h : AnswersFrom step rows v i f)
    (hvw : ∀ j, i ≤ j → j < rows.length → v j = w j) : AnswersFrom step rows w i f := by
  induction h with
  | done hi => exact .done hi
  | @row i f g row hrow hread hrest ih =>
    rw [hvw i (Nat.le_refl i) (List.getElem?_eq_some_iff.mp hrow).1] at hread
    exact .row hrow hread (ih fun j hj hlt => hvw j (by omega) hlt)

/-- **A run from its steps.** All rows are answered when an invariant leads from row to row, and
what each step says of its answer holds of all answers. -/
theorem exists_answersFrom {I : Nat → φ → Prop} {Q : Nat → α → Prop} [Inhabited α]
    (hstep : ∀ i f row, I i f → rows[i]? = some row →
      ∃ a g, Reads rows (step i row) f a g ∧ I (i + 1) g ∧ Q i a) (hf : I i f) :
    ∃ v, AnswersFrom step rows v i f ∧ ∀ j, i ≤ j → j < rows.length → Q j (v j) := by
  -- The induction is on the rows that are left; the invariant hands the state on.
  induction hn : rows.length - i generalizing i f with
  | zero => exact ⟨fun _ => default, .done (by omega), fun j hj hlt => absurd hlt (by omega)⟩
  | succ n ih =>
    have hrow : rows[i]? = some rows[i] := List.getElem?_eq_getElem (by omega)
    obtain ⟨a, g, hread, hg, ha⟩ := hstep i f _ hf hrow
    obtain ⟨v, hrest, hv⟩ := ih hg (by omega)
    -- the answers to the later rows stay; the one to row `i` is put in front
    have hrest' := hrest.congr (w := fun j => if j = i then a else v j) fun j hj _ =>
      (if_neg (by omega)).symm
    refine ⟨fun j => if j = i then a else v j, .row hrow ?_ hrest', fun j hj hlt => ?_⟩
    · rwa [if_pos rfl]
    · show Q j (if j = i then a else v j)
      by_cases hji : j = i
      · rwa [hji, if_pos rfl]
      · rw [if_neg hji]
        exact hv j (by omega) hlt

/-- **A run that repeats itself.** Where an invariant leads from row to row and a row that is like
the one before it is answered as that one was, two rows next to each other that are alike have the
same answer. -/
theorem AnswersFrom.eq_next {I : Nat → φ → Prop} {Alike : Row → Row → Prop}
    (hstep : ∀ i f row, I i f → rows[i]? = some row →
      ∃ a g, Reads rows (step i row) f a g ∧ I (i + 1) g ∧
        ∀ next, rows[i + 1]? = some next → Alike row next → Reads rows (step (i + 1) next) g a g)
    (h : AnswersFrom step rows v i f) (hf : I i f) {j : Nat} {row next : Row} (hij : i ≤ j)
    (hrow : rows[j]? = some row) (hnext : rows[j + 1]? = some next) (halike : Alike row next) :
    v (j + 1) = v j := by
  have hj := (List.getElem?_eq_some_iff.mp hrow).1
  induction h with
  | done hi => omega
  | @row i f g current hcurrent hread hrest ih =>
    obtain ⟨a, g', hread', hg, hagain⟩ := hstep i f current hf hcurrent
    obtain ⟨rfl, rfl⟩ := hread.unique hread'
    rcases Nat.eq_or_lt_of_le hij with rfl | hlt
    · -- the row behind this one is read in the state that this one has left
      rw [hrow] at hcurrent
      cases hcurrent
      cases hrest with
      | done hi =>
        have := (List.getElem?_eq_some_iff.mp hnext).1
        omega
      | @row _ _ _ next' hnext' hreadNext _ =>
        rw [hnext] at hnext'
        cases hnext'
        exact (hreadNext.unique (hagain next hnext halike)).1
    · exact ih hg hlt

end AnswersFrom

namespace Frame

variable {σ : Type} {rows : List Row}

/-- The frame as it was built, before any partition. -/
def renew : Frame σ → Frame σ
  | whole f => whole { tally := f.tally.renew }
  | forward f => forward { f with tally := f.tally.renew }
  | rowDistance f => rowDistance { f with held := { tally := f.held.tally.renew }, length := 0 }
  | keyDistance f =>
    keyDistance { f with held := { tally := f.held.tally.renew }, length := 0, lo := 0, hi := 0 }
  | otherRow f => otherRow { f with tally := f.tally.renew, length := 0 }

/-- A frame that was built as `f₀` answers row `i` of the partition with `v i`. -/
def Evaluates (rows : List Row) (f₀ : Frame σ) (v : Nat → Row) : Prop :=
  ∃ f₁, (∀ f : Frame σ, f.renew = f₀ → Reads rows prepare f () f₁) ∧
    AnswersFrom process rows v 0 f₁

theorem reads_within {φ α : Type} {f g : φ} {wrap : φ → Frame σ} {a : α}
    {x : Action (φ × RowStore) α} (hx : Reads rows x f a g) :
    Reads rows (within f wrap x) (wrap f) a (wrap g) := by
  intro s hs
  obtain ⟨t, hxt, ht, hst⟩ := hx s hs
  exact ⟨t, by simp only [within, Action.onPart, hxt], ht, hst⟩

/-- A frame evaluates a partition when it is prepared to one state and an invariant leads from
row to row; what the steps say of the values holds of all of them. -/
theorem exists_evaluates {f₀ : Frame σ} (f₁ : Frame σ) (I : Nat → Frame σ → Prop)
    (Q : Nat → Row → Prop)
    (hprepare : ∀ f : Frame σ, f.renew = f₀ → Reads rows prepare f () f₁) (hf₁ : I 0 f₁)
    (hstep : ∀ i f row, I i f → rows[i]? = some row →
      ∃ v g, Reads rows (process i row) f v g ∧ I (i + 1) g ∧ Q i v) :
    ∃ v, Evaluates rows f₀ v ∧ ∀ i, i < rows.length → Q i (v i) := by
  obtain ⟨v, hv, hQ⟩ := exists_answersFrom hstep hf₁
  exact ⟨v, ⟨f₁, hprepare, hv⟩, fun i => hQ i (Nat.zero_le i)⟩

end Frame

end SqlWindow
