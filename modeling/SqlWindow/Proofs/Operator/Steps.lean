import SqlWindow.Proofs.Operator.Mirror

set_option autoImplicit false

/-! # Step by step

An operator is fed rows one at a time, and told when the input ends. Whoever feeds it sees of
each step the answer, and the receiver sees the rows that are offered to it; a step that fails
does not keep anyone from going on with the next. `records` is all that is seen of some steps.

How much memory there is for the rows of a partition, and how many of those in a file are read at
a time, is not seen.
-/

namespace SqlWindow

variable {σ ω : Type}

/-! ## What is seen -/

/-- A step of the one who feeds an operator. -/
inductive Step where
  /-- The next row of the input. -/
  | push (row : Row)
  /-- The end of the input. -/
  | finish
deriving DecidableEq, Repr

/-- The row that comes in with a step. -/
def Step.row? : Step → Option Row
  | push row => some row
  | finish => none

/-- The sink, with a log of the rows that are offered to it and whether it takes them. -/
def Sink.logged (sink : Sink ω) : Sink (ω × List (Row × Bool)) where
  emit row := fun (w, log) =>
    match sink.emit row w with
    | .ok () w => .ok () (w, log ++ [(row, true)])
    | .error e w => .error e (w, log ++ [(row, false)])

/-- What is seen of a step: its answer, and the rows that were offered to the receiver, each with
whether it was taken. -/
structure Record where
  step : Step
  answer : Except Error Unit
  offers : List (Row × Bool)

namespace WindowOperator

/-- What a step does. -/
def perform (sink : Sink ω) : Step → Action (WindowOperator σ × ω) Unit
  | .push row => push sink row
  | .finish => finish sink

/-- What is seen of a step, and what it leaves behind. -/
def observe (sink : Sink ω) (step : Step) (s : WindowOperator σ × ω) :
    Record × (WindowOperator σ × ω) :=
  let outcome := (perform sink.logged step).outcome (s.1, s.2, [])
  (⟨step, outcome.1, outcome.2.2.2⟩, outcome.2.1, outcome.2.2.1)

/-- What is seen of some steps, one behind the other, whether they succeed or not. -/
def records (sink : Sink ω) : List Step → WindowOperator σ × ω → List Record
  | [], _ => []
  | step :: steps, s => (observe sink step s).1 :: records sink steps (observe sink step s).2

/-- What some steps leave behind, whether they succeed or not. -/
def after (sink : Sink ω) : List Step → WindowOperator σ × ω → WindowOperator σ × ω
  | [], s => s
  | step :: steps, s => after sink steps (observe sink step s).2

/-- The operator holds these rows back. -/
def Holds : WindowOperator σ → List Row → Prop
  | rowByRow _, rows => rows = []
  | byPartition op, rows => op.store.Holds rows

theorem length_records (sink : Sink ω) (steps : List Step) (s : WindowOperator σ × ω) :
    (records sink steps s).length = steps.length := by
  induction steps generalizing s with
  | nil => rfl
  | cons step steps ih => rw [records, List.length_cons, List.length_cons, ih]

/-! ## Options are not seen -/

section

variable {s₀ t₀ : RowStore}

theorem agree_perform {ω' : Type} {O : ω → ω' → Prop} {sink : Sink ω} {sink' : Sink ω'}
    (hsinks : Receives O sink sink') (hs₀ : s₀.canSpill = true) (ht₀ : t₀.canSpill = true)
    {step : Step} (hfits : ∀ row ∈ step.row?, SpillFile.Fits row) :
    Action.Agree (Action.Abreast (Mirrors (σ := σ) s₀ t₀) O) (Action.Abreast (Mirrors s₀ t₀) O)
      (Action.Abreast (Mirrors s₀ t₀) O) (perform sink step) (perform sink' step) := by
  cases step with
  | push row => exact agree_push hsinks hs₀ ht₀ (hfits row rfl)
  | finish => exact agree_finish hsinks

/-- **One step.** Of operators that mirror each other the same is seen. -/
theorem observe_of_mirrors (sink : Sink ω) (hs₀ : s₀.canSpill = true) (ht₀ : t₀.canSpill = true)
    {step : Step} (hfits : ∀ row ∈ step.row?, SpillFile.Fits row) {op op' : WindowOperator σ}
    (hop : Mirrors s₀ t₀ op op') (w : ω) :
    (observe sink step (op, w)).1 = (observe sink step (op', w)).1 ∧
      Action.Abreast (Mirrors s₀ t₀) Eq (observe sink step (op, w)).2
        (observe sink step (op', w)).2 := by
  have hagree := agree_perform (σ := σ) (.refl sink.logged) hs₀ ht₀ hfits
  have hstart : Action.Abreast (Mirrors s₀ t₀) Eq (op, w, ([] : List (Row × Bool)))
      (op', w, []) := ⟨hop, rfl⟩
  have hanswer := hagree.fst_outcome hstart
  have hbehind := hagree.snd_outcome hstart
  simp only [observe]
  rw [hanswer, hbehind.2]
  exact ⟨rfl, hbehind.1, rfl⟩

/-- **Any steps.** -/
theorem records_of_mirrors (sink : Sink ω) (hs₀ : s₀.canSpill = true) (ht₀ : t₀.canSpill = true)
    {steps : List Step} (hfits : ∀ step ∈ steps, ∀ row ∈ step.row?, SpillFile.Fits row)
    {op op' : WindowOperator σ} (hop : Mirrors s₀ t₀ op op') (w : ω) :
    records sink steps (op, w) = records sink steps (op', w) := by
  induction steps generalizing op op' w with
  | nil => rfl
  | cons step steps ih =>
    obtain ⟨hrecord, hmirrors, hw⟩ :=
      observe_of_mirrors sink hs₀ ht₀ (hfits step List.mem_cons_self) hop w
    have hrest := ih (fun step hstep => hfits step (List.mem_cons_of_mem _ hstep)) hmirrors
      (observe sink step (op, w)).2.2
    simp only [records]
    rw [hrecord, hrest, hw]

end

/-- **Options are not seen.** For every accepted specification and all two options under which
spill files can be created: whatever rows that fit into records come in and whenever the input
ends, both operators give the same answers and offer the same rows in each step, also to a sink
that refuses some of them. -/
theorem records_eq_of_options {spec : WindowSpec} {types : List DataType}
    {options options' : Options} {registry : Registry σ} {op op' : WindowOperator σ}
    (hop : ofSpec spec types options true registry = .ok op)
    (hop' : ofSpec spec types options' true registry = .ok op') {steps : List Step}
    (hsteps : ∀ step ∈ steps, ∀ row ∈ step.row?, SpillFile.Fits row) (sink : Sink ω) (w : ω) :
    records sink steps (op, w) = records sink steps (op', w) :=
  records_of_mirrors sink rfl rfl hsteps (mirrors_of_ofSpec hop hop') w

/-- `LEAD($1)` in partitions by `$0`, which have to be complete. -/
def nextInPartition : WindowSpec where
  groups := [{ partition := [0], sort := [⟨1, true⟩], calls := [.make "LEAD" [.field 1]] }]

/-- A partition of two rows and one of a single row, kept in memory by one operator and in a file,
with one row to a page, by the other. -/
theorem records_eq_of_memory_and_file :
    ∃ op op' : WindowOperator Empty,
      ofSpec nextInPartition [.integer, .integer] {} true Registry.builtin = .ok op ∧
      ofSpec nextInPartition [.integer, .integer] { memory := 0, pageRows := 1 } true
        Registry.builtin = .ok op' ∧
      records Sink.collect [.push [.integer 1, .integer 5], .push [.integer 1, .unknown],
          .push [.integer 2, .integer 3], .finish] (op, []) =
        records Sink.collect [.push [.integer 1, .integer 5], .push [.integer 1, .unknown],
          .push [.integer 2, .integer 3], .finish] (op', []) := by
  obtain ⟨op, hop⟩ : ∃ op : WindowOperator Empty, ofSpec nextInPartition [.integer, .integer] {}
      true Registry.builtin = .ok op := ⟨_, rfl⟩
  obtain ⟨op', hop'⟩ := exists_ofSpec_of_ofSpec hop { memory := 0, pageRows := 1 } true
  exact ⟨op, op', hop, hop', records_eq_of_options hop hop' (by decide) Sink.collect []⟩

end WindowOperator

end SqlWindow
