import SqlWindow.Proofs.Operator.Mirror

set_option autoImplicit false

/-! # What a flush offers

Which rows a flush offers to the sink, and what it answers, is settled by the rows in the store
and the frames as they were built, and it comes bit by bit: the sink can only cut it short. Here
this is said by comparing the flush with `Sink.offer`, which offers a list of rows and does
nothing else.
-/

namespace SqlWindow

variable {σ φ α ω : Type}

/-! ## Offering a list -/

/-- Offers rows to the sink, one behind the other, and then answers. -/
def Sink.offer (sink : Sink ω) (answer : Except Error Unit) : List Row → Action ω Unit
  | [] => Action.ofExcept answer
  | row :: rows => do
    sink.emit row
    sink.offer answer rows

/-- All that the receiver sees of the action, from this state, is that these rows are offered and
what is answered. -/
def Offers (sink : Sink ω) (rows : List Row) (answer : Except Error Unit)
    (x : Action (φ × ω) Unit) (s : φ × ω) : Prop :=
  Action.Alike (fun s w => s.2 = w) (fun s w => s.2 = w) (x s) (sink.offer answer rows s.2)

theorem Sink.outcome_offer_collect (result : Except Error Unit) (outs out : List Row) :
    (Sink.collect.offer result outs).outcome out = (result, outs.reverse ++ out) := by
  induction outs generalizing out with
  | nil => cases result <;> rfl
  | cons row outs ih =>
    have hrest := ih (row :: out)
    rw [List.reverse_cons, List.append_assoc]
    exact hrest

namespace Offers

variable {sink : Sink ω} {rows : List Row} {answer : Except Error Unit} {s t : φ × ω}

theorem of_ok {x : Action (φ × ω) Unit} (h : x s = .ok () t) (ht : t.2 = s.2) :
    Offers sink [] (.ok ()) x s := by
  show Action.Alike _ _ (x s) (.ok () s.2)
  rw [h]
  exact .ok ht

/-- An error that strikes before anything is offered. -/
theorem of_error {x : Action (φ × ω) Unit} {e : Error} (h : x s = .error e t) (ht : t.2 = s.2) :
    Offers sink [] (.error e) x s := by
  show Action.Alike _ _ (x s) (.error e s.2)
  rw [h]
  exact .error ht

/-- A step that the receiver does not see. -/
theorem bind_of_ok {x : Action (φ × ω) α} {k : α → Action (φ × ω) Unit} {a : α}
    (hx : x s = .ok a t) (ht : t.2 = s.2) (hk : Offers sink rows answer (k a) t) :
    Offers sink rows answer (x >>= k) s := by
  unfold Offers
  rw [Action.bind_of_ok hx, ← ht]
  exact hk

theorem bind_of_error {x : Action (φ × ω) α} {k : α → Action (φ × ω) Unit} {e : Error}
    (hx : x s = .error e t) (ht : t.2 = s.2) : Offers sink [] (.error e) (x >>= k) s :=
  of_error (Action.bind_of_error hx) ht

/-- A row is offered in front of the others. -/
theorem emit_bind {k : Unit → Action (φ × ω) Unit} {row : Row}
    (hk : ∀ w, Offers sink rows answer (k ()) (s.1, w)) :
    Offers sink (row :: rows) answer (Action.onSecond (sink.emit row) >>= k) s := by
  show Action.Alike _ _ _ ((sink.emit row >>= fun _ => sink.offer answer rows) s.2)
  cases hrow : sink.emit row s.2 with
  | ok u w =>
    have honSecond : Action.onSecond (sink.emit row) s = .ok u (s.1, w) :=
      Action.onSecond_of_ok hrow
    rw [Action.bind_of_ok honSecond, Action.bind_of_ok hrow]
    exact hk w
  | error e w =>
    have honSecond : Action.onSecond (sink.emit row) s = .error e (s.1, w) :=
      Action.onSecond_of_error hrow
    rw [Action.bind_of_error honSecond, Action.bind_of_error hrow]
    exact .error rfl

theorem andFinally {x : Action (φ × ω) Unit} {f : φ × ω → φ × ω}
    (h : Offers sink rows answer x s) (hf : ∀ t, (f t).2 = t.2) :
    Offers sink rows answer (x.andFinally f) s := by
  unfold Offers Action.andFinally at *
  generalize x s = r at h
  generalize sink.offer answer rows s.2 = q at h
  cases h with
  | ok h => exact .ok ((hf _).trans h)
  | error h => exact .error ((hf _).trans h)

/-- The answer and the receiver's state behind it are those of the offer. -/
theorem outcome_eq {x : Action (φ × ω) Unit} (h : Offers sink rows answer x s) :
    ((x.outcome s).1, (x.outcome s).2.2) = (sink.offer answer rows).outcome s.2 := by
  unfold Offers at h
  simp only [Action.outcome]
  generalize x s = r at h
  generalize sink.offer answer rows s.2 = q at h
  cases h with
  | ok h => exact Prod.ext rfl h
  | error h => exact Prod.ext rfl h

end Offers

theorem RowStore.mirror_of_holds {rows : List Row} {s t : RowStore} (hs : s.Holds rows)
    (ht : t.Holds rows) : Mirror s t rows s t :=
  ⟨⟨hs, .refl s⟩, ht, .refl t⟩

namespace ByPartition

variable {run : List Row}

/-! ## Answering -/

/-- From frames related to `fs`, beside any store of the run, a step on all frames succeeds with
one result and the same frames, or fails with one error. -/
theorem onFrames_ok_or_error (run : List Row) {F E : Frame σ → Frame σ → Prop}
    {x : Action (Frame σ × RowStore) α}
    (hx : ∀ s₀ t₀, Action.Agree (Action.Abreast F (RowStore.Mirror s₀ t₀ run))
      (SameBeside s₀ t₀ run) (Action.Abreast E (RowStore.Mirror s₀ t₀ run)) x x)
    (hF : ∀ f g, F f g → E f g) (hE : ∀ f g, f = g → E f g) (fs : List (Frame σ)) :
    (∃ as gs, ∀ {ω : Type} (op : ByPartition σ) (out : ω), List.Forall₂ F fs op.frames →
      op.store.Holds run → ∃ t, t.Holds run ∧
        onFrames x (op, out) = .ok as ({ op with frames := gs, store := t }, out)) ∨
    ∃ e, ∀ {ω : Type} (op : ByPartition σ) (out : ω), List.Forall₂ F fs op.frames →
      op.store.Holds run → ∃ op', onFrames x (op, out) = .error e (op', out) := by
  -- a store in memory is as good as any
  have halike (op : ByPartition σ) (hfs : List.Forall₂ F fs op.frames) (hop : op.store.Holds run) :=
    Action.Agree.onEach (hx _ _) hF hE (fs, .ofRows run) (op.frames, op.store)
      ⟨hfs, RowStore.mirror_of_holds (RowStore.holds_ofRows run) hop⟩
  cases hresult : Action.onEach x (fs, .ofRows run) with
  | ok as p =>
    refine .inl ⟨as, p.1, ?_⟩
    intro ω op out hfs hop
    have hone := halike op hfs hop
    rw [hresult] at hone
    simp only [onFrames, Action.onFirst, Action.onPart]
    generalize Action.onEach x (op.frames, op.store) = r at hone
    cases hone with
    | @ok _ _ q h =>
      have hgs : List.Forall₂ Eq p.1 q.1 := h.1
      rw [List.forall₂_eq_eq_eq] at hgs
      exact ⟨q.2, h.2.2.1, by rw [hgs]⟩
  | error e p =>
    refine .inr ⟨e, ?_⟩
    intro ω op out hfs hop
    have hone := halike op hfs hop
    rw [hresult] at hone
    simp only [onFrames, Action.onFirst, Action.onPart]
    generalize Action.onEach x (op.frames, op.store) = r at hone
    cases hone with
    | error h => exact ⟨_, rfl⟩

/-- The rows from position `i` on are answered in one way: up to an error, if there is one, each
is followed by its values. -/
theorem exists_offers_answers (n : Nat) {i : Nat} (hn : i + n = run.length)
    (gs : List (Frame σ)) : ∃ outs result,
      List.Forall₂ (· <+: ·) ((run.drop i).take outs.length) outs ∧
      (result = .ok () → outs.length = n) ∧
      ∀ {ω : Type} (sink : Sink ω) (op : ByPartition σ) (out : ω), op.frames = gs →
        op.store.Holds run →
          Offers sink outs result ((List.range' i n).forM (answer sink)) (op, out) := by
  induction n generalizing i gs with
  | zero => exact ⟨[], .ok (), .nil, fun _ => rfl, fun _ _ _ _ _ => .of_ok rfl rfl⟩
  | succ n ih =>
    have hi : i < run.length := by omega
    have hrow : run[i]? = some run[i] := List.getElem?_eq_getElem hi
    have hsame {op : ByPartition σ} (h : op.frames = gs) : List.Forall₂ Eq gs op.frames := by
      rw [List.forall₂_eq_eq_eq, h]
    have hunfold {ω : Type} (sink : Sink ω) : (List.range' i (n + 1)).forM (answer (σ := σ) sink) =
        (onStore (RowStore.row i) >>= fun row => onFrames (Frame.process i row) >>= fun values =>
          Action.onSecond (sink.emit (row ++ values.flatten)) >>= fun _ =>
            (List.range' (i + 1) n).forM (answer sink)) := by
      show answer sink i >>= _ = _
      unfold answer
      simp only [bind_assoc]
    -- what the frames make of the row is settled by the run
    rcases onFrames_ok_or_error (F := Eq) (E := Eq) (x := Frame.process i run[i]) run
        (fun s₀ t₀ => Frame.seesRows_process i run[i]) (fun _ _ h => h) (fun _ _ h => h) gs
      with ⟨values, gs', hvalues⟩ | ⟨e, herror⟩
    · obtain ⟨outs, result, hextend, hlength, hoffers⟩ := ih (i := i + 1) (by omega) gs'
      refine ⟨(run[i] ++ values.flatten) :: outs, result, ?_, ?_, ?_⟩
      · rw [List.drop_eq_getElem_cons hi, List.length_cons, List.take_succ_cons]
        exact .cons (List.prefix_append _ _) hextend
      · intro h
        rw [List.length_cons, hlength h]
      · intro ω sink op out hframes hop
        obtain ⟨s, hs, hsrun⟩ := exists_onStore_row hrow hop out
        obtain ⟨t, htrun, ht⟩ := hvalues { op with store := s } out (hsame hframes) hsrun
        rw [hunfold]
        refine .bind_of_ok hs rfl (.bind_of_ok ht rfl (.emit_bind ?_))
        intro w
        exact hoffers sink { op with frames := gs', store := t } w rfl htrun
    · refine ⟨[], .error e, .nil, by simp, ?_⟩
      intro ω sink op out hframes hop
      obtain ⟨s, hs, hsrun⟩ := exists_onStore_row hrow hop out
      obtain ⟨op', hop'⟩ := herror { op with store := s } out (hsame hframes) hsrun
      rw [hunfold]
      exact .bind_of_ok hs rfl (.bind_of_error hop' rfl)

/-- The whole run is answered in one way, from frames that are twins of those it was built with. -/
theorem exists_offers_evaluate (fs₀ : List (Frame σ)) (run : List Row) : ∃ outs result,
    List.Forall₂ (· <+: ·) (run.take outs.length) outs ∧
    (result = .ok () → outs.length = run.length) ∧
    ∀ {ω : Type} (sink : Sink ω) (op : ByPartition σ) (out : ω),
      List.Forall₂ Frame.Twin fs₀ op.frames → op.store.Holds run →
        Offers sink outs result (evaluate sink) (op, out) := by
  rcases onFrames_ok_or_error run (fun s₀ t₀ => Frame.agree_prepare) (fun _ _ h => h)
      twin_of_eq fs₀ with ⟨us, gs, hprepare⟩ | ⟨e, herror⟩
  · obtain ⟨outs, result, hextend, hlength, hoffers⟩ :=
      exists_offers_answers run.length (Nat.zero_add _) gs
    refine ⟨outs, result, hextend, hlength, ?_⟩
    intro ω sink op out hframes hop
    obtain ⟨t, htrun, ht⟩ := hprepare op out hframes hop
    have hdiscard : discard (onFrames Frame.prepare) (op, out) =
        .ok () ({ op with frames := gs, store := t }, out) := Action.bind_of_ok ht
    unfold Offers evaluate
    rw [Action.get_bind, hop.length_eq, List.range_eq_range']
    exact Offers.bind_of_ok hdiscard rfl (hoffers sink _ out rfl htrun)
  · refine ⟨[], .error e, .nil, by simp, ?_⟩
    intro ω sink op out hframes hop
    obtain ⟨op', hop'⟩ := herror op out hframes hop
    have hdiscard : discard (onFrames Frame.prepare) (op, out) = .error e (op', out) :=
      Action.bind_of_error hop'
    unfold Offers evaluate
    rw [Action.get_bind]
    exact Offers.bind_of_error hdiscard rfl

/-- Whenever the rows of the run are held and the frames are twins of these, a flush offers these
rows and answers so. -/
def FlushOffers (fs₀ : List (Frame σ)) (run outs : List Row) (result : Except Error Unit) : Prop :=
  ∀ (ω : Type) (sink : Sink ω) (op : ByPartition σ) (out : ω),
    List.Forall₂ Frame.Twin fs₀ op.frames → op.store.Holds run →
      Offers sink outs result (flush sink) (op, out)

/-- **What a flush offers** is settled by the frames as they were built and the run that is held:
rows of the run, each followed by values, and all of them unless an error is answered. -/
theorem exists_flushOffers (fs₀ : List (Frame σ)) (run : List Row) : ∃ outs result,
    List.Forall₂ (· <+: ·) (run.take outs.length) outs ∧
    (result = .ok () → outs.length = run.length) ∧ FlushOffers fs₀ run outs result := by
  by_cases hrun : run = []
  · subst hrun
    refine ⟨[], .ok (), .nil, fun _ => rfl, ?_⟩
    intro ω sink op out _ hop
    have hflush : flush sink (op, out) = .ok () ({ op with last := none }, out) := by
      rw [flush_eq, if_pos (hop.isEmpty_iff.mpr rfl)]
    exact .of_ok hflush rfl
  · obtain ⟨outs, result, hextend, hlength, hoffers⟩ := exists_offers_evaluate fs₀ run
    refine ⟨outs, result, hextend, hlength, ?_⟩
    intro ω sink op out hframes hop
    have hempty : ¬op.store.isEmpty = true := by
      intro hempty
      exact hrun (hop.isEmpty_iff.mp hempty)
    unfold Offers
    rw [flush_eq, if_neg hempty]
    exact (hoffers sink { op with last := none } out hframes hop).andFinally fun _ => rfl

end ByPartition

end SqlWindow
