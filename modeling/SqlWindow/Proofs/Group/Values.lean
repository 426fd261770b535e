import SqlWindow.Proofs.Frame.Renew

set_option autoImplicit false

/-! # The values of a group

The frames of a group work side by side over one store: all are prepared, then each row is put
to all of them. As every frame leaves the rows of the store alone, each answers as it would on
its own, and the values of a row are those of its frames one behind the other.
-/

namespace SqlWindow

variable {σ : Type}

/-! ## Values -/

namespace Frame

/-- The values of all frames for the row at a position of the store. -/
def ask (index : Nat) : Action (List (Frame σ) × RowStore) Row := do
  let row ← Action.onSecond (RowStore.row index)
  return (← Action.onEach (process index row)).flatten

/-- The values of all frames for each row of the store, in order. -/
def askAll : Action (List (Frame σ) × RowStore) (List Row) := do
  let length := (← get).2.length
  discard (Action.onEach prepare)
  (List.range length).mapM ask

end Frame

/-- The values of the calls of a group for each row of a store: what its frames, freshly built
and alone, answer there. -/
def WindowGroup.values (g : WindowGroup) (registry : Registry σ) (store : RowStore) :
    Except Error (List Row) := do
  let frames ← Frame.ofGroup g registry
  (Frame.askAll.outcome (frames, store)).1

/-! ## Actions side by side -/

section

variable {φ α : Type} {x : Action (φ × RowStore) α} {rows : List Row}

theorem Reads.onEach_nil : Reads rows (Action.onEach x) [] [] [] :=
  fun s hs => ⟨s, rfl, hs, .refl s⟩

theorem Reads.onEach_cons {f g : φ} {fs gs : List φ} {a : α} {as : List α}
    (h : Reads rows x f a g) (hrest : Reads rows (Action.onEach x) fs as gs) :
    Reads rows (Action.onEach x) (f :: fs) (a :: as) (g :: gs) := by
  intro s hs
  obtain ⟨t, hxt, ht, hst⟩ := h s hs
  obtain ⟨u, hxu, hu, htu⟩ := hrest t ht
  simp only [Action.onEach] at hxu
  exact ⟨u, by simp only [Action.onEach, Action.runEach, hxt, hxu], hu, hst.trans htu⟩

variable {step : Nat → Row → Action (φ × RowStore) α} {v : Nat → α}

theorem AnswersFrom.onEach_nil (v : Nat → List α) (hv : ∀ i, v i = []) (i : Nat) :
    AnswersFrom (fun i row => Action.onEach (step i row)) rows v i [] := by
  induction hn : rows.length - i generalizing i with
  | zero => exact .done (by omega)
  | succ n ih =>
    refine .row (List.getElem?_eq_getElem (by omega)) ?_ (ih (i + 1) (by omega))
    rw [hv i]
    exact .onEach_nil

theorem AnswersFrom.onEach_cons {i : Nat} {f : φ} {fs : List φ} {vs : Nat → List α}
    (h : AnswersFrom step rows v i f)
    (hrest : AnswersFrom (fun i row => Action.onEach (step i row)) rows vs i fs) :
    AnswersFrom (fun i row => Action.onEach (step i row)) rows (fun i => v i :: vs i) i
      (f :: fs) := by
  induction h generalizing fs with
  | done hi => exact .done hi
  | @row i f g row hrow hread _ ih =>
    cases hrest with
    | done hi =>
      have hlt := (List.getElem?_eq_some_iff.mp hrow).1
      omega
    | @row _ _ gs row' hrow' hread' hrest' =>
      rw [hrow] at hrow'
      obtain rfl := Option.some.inj hrow'
      exact .row hrow (.onEach_cons hread hread') (ih hrest')

end

namespace Frame

variable {rows : List Row} {fs₀ : List (Frame σ)}

/-- Frames that were built as `fs₀` answer row `i` of the partition with `v i`. -/
def EvaluatesAll (rows : List Row) (fs₀ : List (Frame σ)) (v : Nat → List Row) : Prop :=
  ∃ fs₁, (∀ fs : List (Frame σ), fs.map renew = fs₀ →
      ∃ us, Reads rows (Action.onEach prepare) fs us fs₁) ∧
    AnswersFrom (fun i row => Action.onEach (process i row)) rows v 0 fs₁

/-- **Frames do not disturb each other.** Side by side each answers as it does alone. -/
theorem evaluatesAll_of_forall {v : Frame σ → Nat → Row}
    (h : ∀ f ∈ fs₀, Evaluates rows f (v f)) :
    EvaluatesAll rows fs₀ fun i => fs₀.map fun f => v f i := by
  induction fs₀ with
  | nil =>
    refine ⟨[], fun fs hfs => ⟨[], ?_⟩, .onEach_nil _ (fun _ => rfl) 0⟩
    rw [List.map_eq_nil_iff.mp hfs]
    exact .onEach_nil
  -- The first frame leaves the rows of the store alone, so the others see the same partition.
  | cons f₀ fs₀ ih =>
    obtain ⟨f₁, hprepare, hanswers⟩ := h f₀ List.mem_cons_self
    obtain ⟨fs₁, hprepareAll, hanswersAll⟩ := ih fun f hf => h f (List.mem_cons_of_mem f₀ hf)
    refine ⟨f₁ :: fs₁, fun fs hfs => ?_, hanswers.onEach_cons hanswersAll⟩
    obtain ⟨f, fs, rfl, hf, hfs⟩ := List.map_eq_cons_iff.mp hfs
    obtain ⟨us, hread⟩ := hprepareAll fs hfs
    exact ⟨() :: us, .onEach_cons (hprepare f hf) hread⟩

/-! ## All rows -/

theorem reads_mapM_ask {v : Nat → List Row} {i : Nat} {fs : List (Frame σ)} (n : Nat)
    (h : AnswersFrom (fun i row => Action.onEach (process i row)) rows v i fs)
    (hn : i + n = rows.length) :
    ∃ gs, Reads rows ((List.range' i n).mapM ask) fs
      ((List.range' i n).map fun j => (v j).flatten) gs := by
  induction n generalizing i fs with
  | zero => exact ⟨fs, .pure _ _⟩
  | succ n ih =>
    cases h with
    | done hi => omega
    | @row _ _ gs row hrow hread hrest =>
      obtain ⟨hs, hreads⟩ := ih hrest (by omega)
      refine ⟨hs, ?_⟩
      rw [List.range'_succ, List.mapM_cons]
      exact .bind (.bind (.row hrow) (.bind hread (.pure _ _))) (.bind hreads (.pure _ _))

/-- The values of frames that answer a partition. -/
theorem EvaluatesAll.reads {v : Nat → List Row} (h : EvaluatesAll rows fs₀ v)
    {fs : List (Frame σ)} (hfs : fs.map renew = fs₀) :
    ∃ gs, Reads rows askAll fs ((List.range rows.length).map fun i => (v i).flatten) gs := by
  obtain ⟨fs₁, hprepare, hanswers⟩ := h
  obtain ⟨us, hread⟩ := hprepare fs hfs
  obtain ⟨gs, hreads⟩ := reads_mapM_ask rows.length hanswers (Nat.zero_add _)
  rw [← List.range_eq_range'] at hreads
  refine ⟨gs, .get fun s hs => ?_⟩
  dsimp only
  rw [hs.length_eq]
  exact .bind (.bind hread (.pure _ _)) hreads

end Frame

/-- **The values of a group** are what its frames answer, on every store of the rows. -/
theorem WindowGroup.values_eq {g : WindowGroup} {registry : Registry σ} {frames : List (Frame σ)}
    {rows : List Row} {store : RowStore} {v : Frame σ → Nat → Row}
    (hframes : Frame.ofGroup g registry = .ok frames) (hnew : ∀ f ∈ frames, f.renew = f)
    (hv : ∀ f ∈ frames, f.Evaluates rows (v f)) (hstore : store.Holds rows) :
    g.values registry store =
      .ok ((List.range rows.length).map fun i => (frames.map fun f => v f i).flatten) := by
  obtain ⟨gs, hreads⟩ := (Frame.evaluatesAll_of_forall hv).reads (map_eq_self hnew)
  obtain ⟨t, ht, -⟩ := hreads store hstore
  rw [values, Answer.bind_of_ok hframes, Action.outcome_of_ok ht]

/-- **A group with one frame** has the values of this frame. It does not matter what earlier
partitions have left in it. -/
theorem WindowGroup.exists_values_of_frame {g : WindowGroup} {registry : Registry σ} {f : Frame σ}
    {rows : List Row} {store : RowStore} {v : Nat → Row}
    (hframes : Frame.ofGroup g registry = .ok [f]) (hnew : f.renew = f)
    (hv : f.Evaluates rows v) (hstore : store.Holds rows) :
    ∃ values, g.values registry store = .ok values ∧ values.length = rows.length ∧
      (∀ i, i < rows.length → values[i]? = some (v i)) ∧
      ∀ left : List (Frame σ), left.map Frame.renew = [f] →
        (Frame.askAll.outcome (left, store)).1 = .ok values := by
  have hall : ∀ f' ∈ [f], f'.Evaluates rows v := by
    intro f' hf'
    rwa [List.mem_singleton.mp hf']
  have hvalues : g.values registry store = _ :=
    values_eq hframes (by simpa using hnew) hall hstore
  refine ⟨_, hvalues, by simp, fun i hi => by simp [hi], fun left hleft => ?_⟩
  obtain ⟨_, hreads⟩ := (Frame.evaluatesAll_of_forall hall).reads hleft
  obtain ⟨_, hasked, -⟩ := hreads store hstore
  rw [Action.outcome_of_ok hasked]

end SqlWindow
