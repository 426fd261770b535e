import SqlWindow.Proofs.Frame.Driven
import SqlWindow.Proofs.Operator.Steps

set_option autoImplicit false

/-! # How operators drive their functions

Through any steps, also those that fail, the functions of an operator are driven from those it was
built with, one for each slot of its frames. An operator that collects partitions tells the number
of rows to all calls but lookups before it reads a result; the rows that it offers in a step are
those of the partition in its store.
-/

namespace SqlWindow

open SqlWindow.Action (Maintains Meets)

variable {σ ω : Type} {mayRetract : Slot σ → Prop} {F : Error → Prop}

/-! ## The log of a sink -/

/-- What is offered has the property. -/
def IsLogged (O : Row → Prop) (s : ω × List (Row × Bool)) : Prop := ∀ p ∈ s.2, O p.1

/-- The errors of the sink are among `F`. -/
def Sink.FailsWith (F : Error → Prop) (sink : Sink ω) : Prop :=
  ∀ row w e w', sink.emit row w = .error e w' → F e

theorem Sink.FailsWith.meets_logged {sink : Sink ω} (h : sink.FailsWith F) {O : Row → Prop}
    {row : Row} (hrow : O row) :
    Maintains F (IsLogged O) (sink.logged.emit row) := by
  rintro ⟨w, log⟩ hlog
  have hnext (taken : Bool) : ∀ p ∈ log ++ [(row, taken)], O p.1 := by
    intro p hp
    rcases List.mem_append.mp hp with hp | hp
    · exact hlog p hp
    · rw [List.mem_singleton.mp hp]
      exact hrow
  simp only [logged]
  cases hemit : sink.emit row w with
  | ok u w' => exact .ok (hnext true)
  | error e w' => exact .error ⟨h row w e w' hemit, hnext false⟩

/-! ## By partitions -/

namespace ByPartition

variable {fs₀ : List (Frame σ)} {s₀ : RowStore} {rows : List Row} {sink : Sink ω}

/-- The frames are related to `fs₀` one by one, and the store, set up as `s₀`, holds the rows. -/
structure HasFrames (G : Frame σ → Frame σ → Prop) (fs₀ : List (Frame σ)) (s₀ : RowStore)
    (rows : List Row) (op : ByPartition σ) : Prop where
  frames : List.Forall₂ G fs₀ op.frames
  store : op.store.Holds rows ∧ s₀.SameSetup op.store

section

variable {G H K : Frame σ → Frame σ → Prop} {T : ω → Prop} {α : Type}

theorem meets_onFrames {A : Frame σ → α → Prop} {x : Action (Frame σ × RowStore) α}
    (hx : ∀ f₀ ∈ fs₀, Meets (Alongside rows s₀ (G f₀))
      (fun a s => A f₀ a ∧ Alongside rows s₀ (H f₀) s)
      (fun e s => F e ∧ Alongside rows s₀ (K f₀) s) x)
    (hG : ∀ f₀ f, G f₀ f → K f₀ f) (hH : ∀ f₀ f, H f₀ f → K f₀ f) :
    Meets (fun s : ByPartition σ × ω => s.1.HasFrames G fs₀ s₀ rows ∧ T s.2)
      (fun as s => List.Forall₂ A fs₀ as ∧ s.1.HasFrames H fs₀ s₀ rows ∧ T s.2)
      (fun e s => F e ∧ s.1.HasFrames K fs₀ s₀ rows ∧ T s.2) (onFrames x) := by
  have heach := Meets.onEach (T := fun s : RowStore => s.Holds rows ∧ s₀.SameSetup s) hx hG hH
  have honPart : Meets (fun op : ByPartition σ => op.HasFrames G fs₀ s₀ rows)
      (fun as op => List.Forall₂ A fs₀ as ∧ op.HasFrames H fs₀ s₀ rows)
      (fun e op => F e ∧ op.HasFrames K fs₀ s₀ rows)
      (Action.onPart (fun op => (op.frames, op.store))
        (fun op s => { op with frames := s.1, store := s.2 }) (Action.onEach x)) :=
    heach.onPart (fun _ hop => ⟨hop.frames, hop.store⟩) (fun _ _ _ _ hs => ⟨hs.1, hs.2.1, hs.2.2⟩)
      fun _ _ _ _ hs => ⟨hs.1, hs.2.1, hs.2.2⟩
  exact honPart.onFirst

theorem meets_onStore {rows' : List Row} {Q : α → Prop} {x : Action RowStore α}
    (hx : Meets (fun s => s.Holds rows ∧ s₀.SameSetup s)
      (fun a s => Q a ∧ s.Holds rows' ∧ s₀.SameSetup s)
      (fun e s => F e ∧ s.Holds rows ∧ s₀.SameSetup s) x) :
    Meets (fun s : ByPartition σ × ω => s.1.HasFrames G fs₀ s₀ rows ∧ T s.2)
      (fun a s => Q a ∧ s.1.HasFrames G fs₀ s₀ rows' ∧ T s.2)
      (fun e s => F e ∧ s.1.HasFrames G fs₀ s₀ rows ∧ T s.2) (onStore x) := by
  have honPart : Meets (fun op : ByPartition σ => op.HasFrames G fs₀ s₀ rows)
      (fun a op => Q a ∧ op.HasFrames G fs₀ s₀ rows')
      (fun e op => F e ∧ op.HasFrames G fs₀ s₀ rows)
      (Action.onPart store (fun op store => { op with store }) x) :=
    hx.onPart (fun _ hop => hop.store) (fun _ _ _ hop hs => ⟨hs.1, hop.frames, hs.2⟩)
      fun _ _ _ hop hs => ⟨hs.1, hop.frames, hs.2⟩
  exact honPart.onFirst

end

/-- What is offered for a row of a partition: the row, and behind it the results of functions that
were told the number of rows in the partition, lookups apart. -/
def IsAnswer (mayRetract : Slot σ → Prop) (fs₀ : List (Frame σ)) (rows : List Row)
    (out : Row) : Prop :=
  ∃ row ∈ rows, ∃ v, out = row ++ v ∧
    Slot.HasResults mayRetract (Slot.IsTold rows.length) (Frame.slots fs₀) v

/-- The operator has frames related to `fs₀` and holds the rows, and all that was offered has the
property. -/
def Serves (G : Frame σ → Frame σ → Prop) (fs₀ : List (Frame σ)) (s₀ : RowStore) (rows : List Row)
    (O : Row → Prop) (s : ByPartition σ × ω × List (Row × Bool)) : Prop :=
  s.1.HasFrames G fs₀ s₀ rows ∧ IsLogged O s.2

/-- The same, whatever rows the operator holds. -/
def ServesSome (G : Frame σ → Frame σ → Prop) (fs₀ : List (Frame σ)) (s₀ : RowStore)
    (O : Row → Prop) (s : ByPartition σ × ω × List (Row × Bool)) : Prop :=
  ∃ rows, Serves G fs₀ s₀ rows O s

theorem isPlain_startsPartition (op : ByPartition σ) (row : Row) :
    Answer.IsPlain (op.startsPartition row) := by
  unfold startsPartition
  split
  · exact .bind (Row.isPlain_samePartition _ _ _) fun _ => .ok _
  · exact .ok _

/-- Keeping a row drives no function and offers nothing. -/
theorem maintains_keepRow (hF : ∀ e, e.isAboutRetraction = false → F e) {O : Row → Prop}
    (row : Row) : Maintains F
      (fun s : ByPartition σ × ω × List (Row × Bool) =>
        ServesSome (Frame.IsDriven mayRetract) fs₀ s₀ O s) (keepRow row) := by
  refine .ofExists fun rows => ?_
  refine .bind (.modify (Q := fun _ => Serves (Frame.IsDriven mayRetract) fs₀ s₀ rows O)
    fun _ hs => ⟨⟨hs.1.frames, hs.1.store⟩, hs.2⟩) fun _ => ?_
  have happend : Meets (fun s => s.Holds rows ∧ s₀.SameSetup s)
      (fun _ s => True ∧ s.Holds (rows ++ [row]) ∧ s₀.SameSetup s) _ (RowStore.append row) :=
    (RowStore.meets_append hF row).imp (fun _ hs => hs) (fun _ _ hs => ⟨trivial, hs⟩)
      fun _ _ hs => hs
  exact (meets_onStore happend).imp (fun _ hs => hs) (fun _ _ hs => ⟨_, hs.2⟩)
    fun _ _ hs => ⟨hs.1, _, hs.2⟩

section

variable (hF : ∀ e, e.isAboutRetraction = false → F e) (hsink : sink.FailsWith F)
  (hfs₀ : ∀ f₀ ∈ fs₀, f₀.IsDrivable mayRetract F)

include hF hsink hfs₀

/-- **One row of a prepared partition.** -/
theorem maintains_answer (index : Nat) :
    Maintains F (Serves (Frame.IsDrivenOver mayRetract rows.length) fs₀ s₀ rows
      (IsAnswer mayRetract fs₀ rows)) (answer sink.logged index) := by
  refine .bind (meets_onStore (RowStore.meets_row hF index)) fun row => .assume fun hrow => ?_
  refine .bind (meets_onFrames (fun f₀ hf₀ => (hfs₀ f₀ hf₀).meets_process hF index row)
    (fun _ _ hf => hf) fun _ _ hf => hf) fun values => .assume fun hvalues => ?_
  have hout : IsAnswer mayRetract fs₀ rows (row ++ values.flatten) := by
    refine ⟨row, List.mem_of_getElem? hrow, values.flatten, rfl, ?_⟩
    exact Slot.hasResults_flatten (List.forall₂_map_left_iff.mpr hvalues)
  exact (hsink.meets_logged hout).onSecond

omit hsink in
/-- Whether the frames can be prepared or not, their functions are driven. -/
theorem meets_prepare {O : Row → Prop} :
    Meets (fun s : ByPartition σ × ω × List (Row × Bool) =>
        Serves (Frame.IsDriven mayRetract) fs₀ s₀ rows O s)
      (fun _ => Serves (Frame.IsDrivenOver mayRetract rows.length) fs₀ s₀ rows O)
      (fun e s => F e ∧ Serves (Frame.IsDriven mayRetract) fs₀ s₀ rows O s)
      (discard (onFrames Frame.prepare)) := by
  have hone (f₀ : Frame σ) (hf₀ : f₀ ∈ fs₀) :
      Meets (Alongside rows s₀ (f₀.IsDriven mayRetract))
        (fun _ s => True ∧ Alongside rows s₀ (f₀.IsDrivenOver mayRetract rows.length) s)
        (fun e s => F e ∧ Alongside rows s₀ (f₀.IsDriven mayRetract) s) Frame.prepare :=
    ((hfs₀ f₀ hf₀).meets_prepare hF).imp (fun _ hs => hs) (fun _ _ hs => ⟨trivial, hs⟩)
      fun _ _ hs => hs
  exact .discard (.imp (meets_onFrames (A := fun _ _ => True) (T := IsLogged O) hone
    (fun _ _ hf => hf) fun _ _ hf => hf.isDriven) (fun _ hs => hs) (fun _ _ hs => hs.2)
    fun _ _ hs => hs)

/-- **A partition.** -/
theorem maintains_evaluate :
    Maintains F (Serves (Frame.IsDriven mayRetract) fs₀ s₀ rows (IsAnswer mayRetract fs₀ rows))
      (evaluate sink.logged) := by
  have hdriven {op : ByPartition σ}
      (hop : op.HasFrames (Frame.IsDrivenOver mayRetract rows.length) fs₀ s₀ rows) :
      op.HasFrames (Frame.IsDriven mayRetract) fs₀ s₀ rows :=
    ⟨List.Forall₂.imp (fun _ _ hf => hf.isDriven) hop.frames, hop.store⟩
  refine .get fun s _ => .bind (meets_prepare hF hfs₀) fun _ => ?_
  exact .imp (.forM fun index _ => maintains_answer hF hsink hfs₀ index) (fun _ hs => hs)
    (fun _ _ hs => ⟨hdriven hs.1, hs.2⟩) fun _ _ hs => ⟨hs.1, hdriven hs.2.1, hs.2.2⟩

/-- **The end of a partition.** What is offered are the answers to its rows; whether all of them
are taken or not, it is over. -/
theorem meets_flush :
    Meets (Serves (Frame.IsDriven mayRetract) fs₀ s₀ rows (IsAnswer mayRetract fs₀ rows))
      (fun _ => ServesSome (Frame.IsDriven mayRetract) fs₀ s₀ (IsAnswer mayRetract fs₀ rows))
      (fun e s => F e ∧
        ServesSome (Frame.IsDriven mayRetract) fs₀ s₀ (IsAnswer mayRetract fs₀ rows) s)
      (flush sink.logged) := by
  have hreleased {s : ByPartition σ × ω × List (Row × Bool)}
      (hs : Serves (Frame.IsDriven mayRetract) fs₀ s₀ rows (IsAnswer mayRetract fs₀ rows) s) :
      ServesSome (Frame.IsDriven mayRetract) fs₀ s₀ (IsAnswer mayRetract fs₀ rows)
        ({ s.1 with store := s.1.store.release }, s.2) :=
    ⟨[], ⟨hs.1.frames, s.1.store.holds_release, hs.1.store.2⟩, hs.2⟩
  refine .bind (.modify (Q := fun _ => Serves (Frame.IsDriven mayRetract) fs₀ s₀ rows
    (IsAnswer mayRetract fs₀ rows)) fun _ hs => ⟨⟨hs.1.frames, hs.1.store⟩, hs.2⟩) fun _ =>
      .get fun s _ => ?_
  split
  · exact .pure fun _ hs => ⟨rows, hs⟩
  · exact (maintains_evaluate hF hsink hfs₀).andFinally (fun _ _ hs => hreleased hs)
      fun _ _ hs => ⟨hs.1, hreleased hs.2⟩

/-- **A row of the input.** What is offered are the answers to the rows of the partition before. -/
theorem meets_push (row : Row) :
    Meets (Serves (Frame.IsDriven mayRetract) fs₀ s₀ rows (IsAnswer mayRetract fs₀ rows))
      (fun _ => ServesSome (Frame.IsDriven mayRetract) fs₀ s₀ (IsAnswer mayRetract fs₀ rows))
      (fun e s => F e ∧
        ServesSome (Frame.IsDriven mayRetract) fs₀ s₀ (IsAnswer mayRetract fs₀ rows) s)
      (push sink.logged row) := by
  refine .get fun s _ => .bind (.ofExcept (fun _ _ _ hs => hs) fun e _ herror hs =>
    ⟨hF e (s.1.isPlain_startsPartition row e herror), rows, hs⟩) fun starts => ?_
  cases starts with
  | true => exact .bind (meets_flush hF hsink hfs₀) fun _ => maintains_keepRow hF row
  | false =>
    exact (maintains_keepRow hF row).imp (fun _ hs => ⟨rows, hs⟩) (fun _ _ hs => hs)
      fun _ _ hs => hs

end

end ByPartition

/-! ## Row by row -/

namespace RowByRow

variable {fs₀ : List (Forward (CallTally σ))} {sink : Sink ω}

/-- The functions of the frame are driven from those of `f₀`. -/
def IsDriven (mayRetract : Slot σ → Prop) (f₀ f : Forward (CallTally σ)) : Prop :=
  f₀.tally.Driven mayRetract (fun _ _ => True) f.tally ∧ f.currentRowOnly = f₀.currentRowOnly

/-- What is offered for a row: the row, and behind it the results of functions. -/
def IsAnswer (mayRetract : Slot σ → Prop) (fs₀ : List (Forward (CallTally σ))) (out : Row) :
    Prop :=
  ∃ row v, out = row ++ v ∧
    Slot.HasResults mayRetract (fun _ _ => True) (fs₀.flatMap fun f => f.tally.slots) v

/-- The functions of the frames are driven, and all that was offered has the property. -/
def Serves (mayRetract : Slot σ → Prop) (fs₀ : List (Forward (CallTally σ))) (O : Row → Prop)
    (s : RowByRow σ × ω × List (Row × Bool)) : Prop :=
  List.Forall₂ (IsDriven mayRetract) fs₀ s.1.frames ∧ IsLogged O s.2

theorem isPlain_startsPartition (op : RowByRow σ) (row : Row) :
    Answer.IsPlain (op.startsPartition row) := by
  unfold startsPartition
  split
  · exact .bind (Row.isPlain_samePartition _ _ _) fun _ => .ok _
  · exact .ok _

theorem IsDriven.prepare {f₀ f : Forward (CallTally σ)} (h : IsDriven mayRetract f₀ f)
    (size : Nat) : IsDriven mayRetract f₀ (f.prepare size) :=
  ⟨h.1.clear.setWindowSize size fun _ => trivial, h.2⟩

section

variable (hfs₀ : ∀ f₀ ∈ fs₀, (Frame.forward f₀).IsDrivable mayRetract F)

include hfs₀

theorem meets_values (row : Row) :
    Meets (fun op : RowByRow σ => List.Forall₂ (IsDriven mayRetract) fs₀ op.frames)
      (fun vs op => Slot.HasResults mayRetract (fun _ _ => True)
        (fs₀.flatMap fun f => f.tally.slots) vs.flatten ∧
          List.Forall₂ (IsDriven mayRetract) fs₀ op.frames)
      (fun e op => F e ∧ List.Forall₂ (IsDriven mayRetract) fs₀ op.frames) (values row) := by
  have hone (f₀ : Forward (CallTally σ)) (hf₀ : f₀ ∈ fs₀) :
      Meets (fun s : Forward (CallTally σ) × Unit => IsDriven mayRetract f₀ s.1 ∧ True)
        (fun v s => Slot.HasResults mayRetract (fun _ _ => True) f₀.tally.slots v ∧
          IsDriven mayRetract f₀ s.1 ∧ True)
        (fun e s => F e ∧ IsDriven mayRetract f₀ s.1 ∧ True)
        (Action.onFirst (Forward.process row)) := by
    have hprocess :=
      Forward.meets_process ((hfs₀ f₀ hf₀).obeys fun _ _ => True) f₀.currentRowOnly row
    refine (hprocess.onFirst (T := fun _ => True)).imp (fun _ hs => hs) (fun v s hs => ?_)
      fun _ _ hs => hs
    obtain ⟨⟨t, ht, rfl⟩, hs⟩ := hs
    exact ⟨ht.hasResults, hs⟩
  have heach := Meets.onEach (K := IsDriven mayRetract) (T := fun _ => True) (F := F) hone
    (fun _ _ hf => hf) fun _ _ hf => hf
  refine heach.onPart (fun _ hop => ⟨hop, trivial⟩) (fun _ vs _ _ hs => ⟨?_, hs.2.1⟩)
    fun _ _ _ _ hs => ⟨hs.1, hs.2.1⟩
  exact Slot.hasResults_flatten (List.forall₂_map_left_iff.mpr hs.1)

/-- **A row of the input**, which is answered at once. -/
theorem maintains_push (hF : ∀ e, e.isAboutRetraction = false → F e) (hsink : sink.FailsWith F)
    (row : Row) :
    Maintains F (Serves mayRetract fs₀ (IsAnswer mayRetract fs₀)) (push sink.logged row) := by
  have hanswer : Maintains F (Serves mayRetract fs₀ (IsAnswer mayRetract fs₀))
      (answerRow sink.logged row) := by
    have hvalues : Meets (fun s : RowByRow σ × ω × List (Row × Bool) =>
          Serves mayRetract fs₀ (IsAnswer mayRetract fs₀) s)
        (fun vs s => Slot.HasResults mayRetract (fun _ _ => True)
          (fs₀.flatMap fun f => f.tally.slots) vs.flatten ∧
            Serves mayRetract fs₀ (IsAnswer mayRetract fs₀) s)
        (fun e s => F e ∧ Serves mayRetract fs₀ (IsAnswer mayRetract fs₀) s)
        (Action.onFirst (values row)) :=
      (meets_values hfs₀ row).onFirst
    refine .bind hvalues fun vs => .assume fun hvs => ?_
    have hout : IsAnswer mayRetract fs₀ (row ++ vs.flatten) := ⟨row, vs.flatten, rfl, hvs⟩
    refine .bind (.modify (Q := fun _ => Serves mayRetract fs₀ (IsAnswer mayRetract fs₀))
      fun _ hs => hs) fun _ => ?_
    exact (hsink.meets_logged hout).onSecond
      (T := fun op : RowByRow σ => List.Forall₂ (IsDriven mayRetract) fs₀ op.frames)
  refine .get fun s _ => .bind (.ofExcept (fun _ _ _ hs => hs) fun e _ herror hs =>
    ⟨hF e (s.1.isPlain_startsPartition row e herror), hs⟩) fun starts => ?_
  cases starts with
  | true =>
    refine .bind (.modify (Q := fun _ => Serves mayRetract fs₀ (IsAnswer mayRetract fs₀))
      fun _ hs => ⟨?_, hs.2⟩) fun _ => hanswer
    exact List.forall₂_map_right_iff.mpr (List.Forall₂.imp (fun _ _ hf => hf.prepare 0) hs.1)
  | false => exact hanswer

end

end RowByRow

/-! ## Any operator -/

namespace WindowOperator

variable {op₀ op : WindowOperator σ} {sink : Sink ω} {step : Step} {steps : List Step}

/-- The frames of an operator. -/
def frames : WindowOperator σ → List (Frame σ)
  | rowByRow op => op.frames.map Frame.forward
  | byPartition op => op.frames

/-- The slots of an operator, in the order of its frames. -/
def slots (op : WindowOperator σ) : List (Slot σ) := Frame.slots op.frames

theorem slots_rowByRow (op : RowByRow σ) :
    (rowByRow op).slots = op.frames.flatMap fun f => f.tally.slots :=
  List.flatMap_map ..

/-- The functions of the operator are driven from those of `op₀`. -/
inductive IsDriven (mayRetract : Slot σ → Prop) :
    WindowOperator σ → WindowOperator σ → Prop where
  | rowByRow {op₀ op : RowByRow σ}
      (h : List.Forall₂ (RowByRow.IsDriven mayRetract) op₀.frames op.frames) :
      IsDriven mayRetract (rowByRow op₀) (rowByRow op)
  | byPartition {op₀ op : ByPartition σ} {rows : List Row}
      (h : op.HasFrames (Frame.IsDriven mayRetract) op₀.frames op₀.store rows) :
      IsDriven mayRetract (byPartition op₀) (byPartition op)

/-- What an operator may offer in a step: for an operator that collects partitions, an answer to a
row of those that it holds. -/
inductive IsAnswer (mayRetract : Slot σ → Prop) :
    WindowOperator σ → WindowOperator σ → Row → Prop where
  | rowByRow {op₀ op : RowByRow σ} {out : Row}
      (h : RowByRow.IsAnswer mayRetract op₀.frames out) :
      IsAnswer mayRetract (rowByRow op₀) (rowByRow op) out
  | byPartition {op₀ op : ByPartition σ} {rows : List Row} {out : Row} (hrows : op.store.Holds rows)
      (h : ByPartition.IsAnswer mayRetract op₀.frames rows out) :
      IsAnswer mayRetract (byPartition op₀) (byPartition op) out

theorem slots_of_isDriven (h : IsDriven mayRetract op₀ op) :
    List.Forall₂ (fun s₀ s => s₀.Drives mayRetract (fun _ _ => True) s.accumulator) op₀.slots
      op.slots := by
  cases h with
  | rowByRow h =>
    rw [slots_rowByRow, slots_rowByRow]
    exact List.rel_flatMap h fun _ _ hf => hf.1
  | byPartition h =>
    exact List.rel_flatMap h.frames fun _ _ hf => hf.tally

/-- From `op` the action drives functions, offers answers, and fails with errors among `F`. -/
def Performs (mayRetract : Slot σ → Prop) (F : Error → Prop) (op₀ op : WindowOperator σ)
    (x : Action (WindowOperator σ × ω × List (Row × Bool)) Unit) : Prop :=
  Meets (fun s => s.1 = op ∧ s.2.2 = [])
    (fun _ s => IsDriven mayRetract op₀ s.1 ∧ IsLogged (IsAnswer mayRetract op₀ op) s.2)
    (fun e s => F e ∧ IsDriven mayRetract op₀ s.1 ∧ IsLogged (IsAnswer mayRetract op₀ op) s.2) x

theorem isLogged_of_eq_nil {O : Row → Prop} {s : ω × List (Row × Bool)} (h : s.2 = []) :
    IsLogged O s := by
  rw [IsLogged, h]
  nofun

section

variable (hF : ∀ e, e.isAboutRetraction = false → F e) (hsink : sink.FailsWith F)

include hF hsink

theorem performs_rowByRow {op₀ op : RowByRow σ}
    (hop₀ : ∀ f₀ ∈ (rowByRow op₀).frames, f₀.IsDrivable mayRetract F)
    (h : List.Forall₂ (RowByRow.IsDriven mayRetract) op₀.frames op.frames) (step : Step) :
    Performs mayRetract F (rowByRow op₀) (rowByRow op) (perform sink.logged step) := by
  have hanswer {s : ω × List (Row × Bool)}
      (hs : IsLogged (RowByRow.IsAnswer mayRetract op₀.frames) s) :
      IsLogged (IsAnswer mayRetract (rowByRow op₀) (rowByRow op)) s :=
    fun p hp => .rowByRow (hs p hp)
  have hwithin {x : Action (RowByRow σ × ω × List (Row × Bool)) Unit}
      (hx : Maintains F (RowByRow.Serves mayRetract op₀.frames
        (RowByRow.IsAnswer mayRetract op₀.frames)) x) :
      Performs mayRetract F (rowByRow op₀) (rowByRow op) (within op rowByRow x) :=
    hx.onPart (fun _ hs => ⟨h, isLogged_of_eq_nil hs.2⟩)
      (fun _ _ _ _ ht => ⟨.rowByRow ht.1, hanswer ht.2⟩)
      fun _ _ _ _ ht => ⟨ht.1, .rowByRow ht.2.1, hanswer ht.2.2⟩
  cases step with
  | push row =>
    refine .get fun s hs => ?_
    rw [hs.1]
    exact hwithin (RowByRow.maintains_push
      (fun f₀ hf₀ => hop₀ _ (List.mem_map_of_mem hf₀)) hF hsink row)
  | finish =>
    refine .get fun s hs => ?_
    rw [hs.1]
    exact hwithin (.modify fun _ ht => ht)

theorem performs_byPartition {op₀ op : ByPartition σ} {rows : List Row}
    (hop₀ : ∀ f₀ ∈ op₀.frames, f₀.IsDrivable mayRetract F)
    (h : op.HasFrames (Frame.IsDriven mayRetract) op₀.frames op₀.store rows) (step : Step) :
    Performs mayRetract F (byPartition op₀) (byPartition op) (perform sink.logged step) := by
  have hanswer {s : ω × List (Row × Bool)}
      (hs : IsLogged (ByPartition.IsAnswer mayRetract op₀.frames rows) s) :
      IsLogged (IsAnswer mayRetract (byPartition op₀) (byPartition op)) s :=
    fun p hp => .byPartition h.store.1 (hs p hp)
  have hwithin {x : Action (ByPartition σ × ω × List (Row × Bool)) Unit}
      (hx : Meets (ByPartition.Serves (Frame.IsDriven mayRetract) op₀.frames op₀.store rows
          (ByPartition.IsAnswer mayRetract op₀.frames rows))
        (fun _ => ByPartition.ServesSome (Frame.IsDriven mayRetract) op₀.frames op₀.store
          (ByPartition.IsAnswer mayRetract op₀.frames rows))
        (fun e s => F e ∧ ByPartition.ServesSome (Frame.IsDriven mayRetract) op₀.frames op₀.store
          (ByPartition.IsAnswer mayRetract op₀.frames rows) s) x) :
      Performs mayRetract F (byPartition op₀) (byPartition op) (within op byPartition x) := by
    refine hx.onPart (fun _ hs => ⟨h, isLogged_of_eq_nil hs.2⟩) (fun _ _ _ _ ht => ?_)
      fun _ _ _ _ ht => ?_
    · obtain ⟨rows', hserves, hlog⟩ := ht
      exact ⟨.byPartition hserves, hanswer hlog⟩
    · obtain ⟨he, rows', hserves, hlog⟩ := ht
      exact ⟨he, .byPartition hserves, hanswer hlog⟩
  cases step with
  | push row =>
    refine .get fun s hs => ?_
    rw [hs.1]
    exact hwithin (ByPartition.meets_push hF hsink hop₀ row)
  | finish =>
    refine .get fun s hs => ?_
    rw [hs.1]
    exact hwithin (ByPartition.meets_flush hF hsink hop₀)

/-- **One step.** -/
theorem IsDriven.perform (hop₀ : ∀ f₀ ∈ op₀.frames, f₀.IsDrivable mayRetract F)
    (h : IsDriven mayRetract op₀ op) (step : Step) :
    Performs mayRetract F op₀ op (perform sink.logged step) := by
  cases h with
  | rowByRow h => exact performs_rowByRow hF hsink hop₀ h step
  | byPartition h => exact performs_byPartition hF hsink hop₀ h step

/-- **What is seen of one step.** -/
theorem IsDriven.observe (hop₀ : ∀ f₀ ∈ op₀.frames, f₀.IsDrivable mayRetract F)
    (h : IsDriven mayRetract op₀ op) (step : Step) (w : ω) :
    IsDriven mayRetract op₀ (observe sink step (op, w)).2.1 ∧
      (∀ e, (WindowOperator.observe sink step (op, w)).1.answer = .error e → F e) ∧
      ∀ p ∈ (WindowOperator.observe sink step (op, w)).1.offers,
        IsAnswer mayRetract op₀ op p.1 := by
  have hends := h.perform hF hsink hop₀ step (op, w, []) ⟨rfl, rfl⟩
  simp only [WindowOperator.observe, Action.outcome]
  cases hresult : WindowOperator.perform sink.logged step (op, w, []) with
  | ok u t =>
    rw [hresult, Action.ends_ok_iff] at hends
    refine ⟨hends.1, fun e he => ?_, hends.2⟩
    cases he
  | error e t =>
    rw [hresult, Action.ends_error_iff] at hends
    refine ⟨hends.2.1, fun e' he' => ?_, hends.2.2⟩
    cases he'
    exact hends.1

/-- **What is left behind by any steps.** -/
theorem IsDriven.after (hop₀ : ∀ f₀ ∈ op₀.frames, f₀.IsDrivable mayRetract F)
    (h : IsDriven mayRetract op₀ op) (steps : List Step) (w : ω) :
    IsDriven mayRetract op₀ (after sink steps (op, w)).1 := by
  induction steps generalizing op w with
  | nil => exact h
  | cons step steps ih => exact ih (h.observe hF hsink hop₀ step w).1 _

/-- **What is seen of any steps.** -/
theorem IsDriven.records (hop₀ : ∀ f₀ ∈ op₀.frames, f₀.IsDrivable mayRetract F)
    (h : IsDriven mayRetract op₀ op) (steps : List Step) (w : ω) :
    ∀ r ∈ records sink steps (op, w), ∀ e, r.answer = .error e → F e := by
  induction steps generalizing op w with
  | nil => exact nofun
  | cons step steps ih =>
    intro r hr
    obtain ⟨hnext, hanswer, -⟩ := h.observe hF hsink hop₀ step w
    rcases List.mem_cons.mp hr with rfl | hr
    · exact hanswer
    · exact ih hnext _ r hr

end

end WindowOperator

end SqlWindow
