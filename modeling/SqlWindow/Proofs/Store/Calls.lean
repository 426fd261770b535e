import SqlWindow.Proofs.Store.RowStore

set_option autoImplicit false

/-! # Calls on a store

A store seen from outside: calls come in any order, and each is answered. The main statement,
`answers_eq_listAnswers`, says that whatever the memory budget and the size of a page, the
answers are those of a plain list of rows, and that reading a row has no effect on any later
answer.
-/

namespace SqlWindow

/-- A call on a store. -/
inductive StoreCall where
  | append (row : Row)
  | get (index : Nat)
  | release
deriving DecidableEq, Repr

namespace StoreCall

/-! ## The two ways to answer -/

/-- A call on a store; only `get` has a result. -/
def perform : StoreCall → Action RowStore (Option Row)
  | append row => do
    RowStore.append row
    return none
  | get index => do return some (← RowStore.row index)
  | release => do
    modify RowStore.release
    return none

/-- What calls on a store answer one after the other, each with the length of the store behind
it. -/
def answers : List StoreCall → RowStore → List (Except Error (Option Row) × Nat)
  | [], _ => []
  | call :: calls, s =>
    let after := call.perform.outcome s
    (after.1, after.2.length) :: answers calls after.2

/-- The row of a list at a position. Behind its end there is none. -/
def rowAt (rows : List Row) (index : Nat) : Except Error (Option Row) :=
  match rows[index]? with
  | some row => .ok (some row)
  | none => .error (.internal s!"buffer row {index} out of range (len={rows.length})")

/-- A call on a plain list of rows. -/
def onList : StoreCall → List Row → Except Error (Option Row) × List Row
  | append row, rows => (.ok none, rows ++ [row])
  | get index, rows => (rowAt rows index, rows)
  | release, _ => (.ok none, [])

/-- What calls on a plain list of rows answer. -/
def listAnswers : List StoreCall → List Row → List (Except Error (Option Row) × Nat)
  | [], _ => []
  | call :: calls, rows =>
    let after := call.onList rows
    (after.1, after.2.length) :: listAnswers calls after.2

/-! ## One call -/

/-- The rows of the call, if it brings one, fit into a record. -/
def Fits : StoreCall → Prop
  | append row => SpillFile.Fits row
  | _ => True

instance (call : StoreCall) : Decidable call.Fits := by
  cases call <;> unfold Fits <;> infer_instance

/-- **One call.** The store answers what the list answers and goes on with the same rows. -/
theorem perform_eq_onList {s : RowStore} {rows : List Row} {call : StoreCall}
    (h : s.Holds rows) (hcan : s.canSpill) (hfits : call.Fits) :
    ∃ t, call.perform.outcome s = ((call.onList rows).1, t) ∧ t.Holds (call.onList rows).2 ∧
      t.canSpill := by
  cases call with
  | append row =>
    obtain ⟨t, ht⟩ := RowStore.append_succeeds s hcan hfits
    have happended := h.append row
    rw [ht] at happended
    refine ⟨t, ?_, happended.1, happended.2.2.trans hcan⟩
    rw [Action.outcome, perform, Action.bind_of_ok ht]
    rfl
  | get index =>
    cases hrow : rows[index]? with
    | some row =>
      obtain ⟨t, ht, hholds, hsetup⟩ := h.row hrow
      refine ⟨t, ?_, hholds, hsetup.2.trans hcan⟩
      rw [Action.outcome, perform, Action.bind_of_ok ht, onList, rowAt, hrow]
      rfl
    | none =>
      have ht := h.row_of_length_le (List.getElem?_eq_none_iff.mp hrow)
      refine ⟨s, ?_, h, hcan⟩
      rw [Action.outcome, perform, Action.bind_of_error ht, onList, rowAt, hrow]
  | release => exact ⟨s.release, rfl, RowStore.holds_release s, hcan⟩

/-! ## All calls -/

/-- From the same rows on, store and list answer alike. -/
theorem answers_eq_listAnswers_of_holds {s : RowStore} {rows : List Row} {calls : List StoreCall}
    (h : s.Holds rows) (hcan : s.canSpill) (hfits : ∀ call ∈ calls, call.Fits) :
    answers calls s = listAnswers calls rows := by
  induction calls generalizing s rows with
  | nil => rfl
  | cons call calls ih =>
    obtain ⟨t, ht, hholds, hcan'⟩ := perform_eq_onList h hcan (hfits call List.mem_cons_self)
    rw [answers, listAnswers, ht, hholds.length_eq,
      ih hholds hcan' fun c hc => hfits c (List.mem_cons_of_mem call hc)]

theorem length_listAnswers (calls : List StoreCall) (rows : List Row) :
    (listAnswers calls rows).length = calls.length := by
  induction calls generalizing rows with
  | nil => rfl
  | cons call calls ih => rw [listAnswers, List.length_cons, ih, List.length_cons]

theorem listAnswers_append (before after : List StoreCall) (rows : List Row) :
    listAnswers (before ++ after) rows =
      listAnswers before rows ++
        listAnswers after (before.foldl (fun rows call => (call.onList rows).2) rows) := by
  induction before generalizing rows with
  | nil => rfl
  | cons call before ih =>
    rw [List.cons_append, listAnswers, listAnswers, ih]
    rfl

/-- **A store is a list.** Under every memory budget and every size of a page, the calls on a new
store are answered as on the empty list, with the same lengths; and a `get`, whether it finds a
row or not, makes no difference to the answers behind it. -/
theorem answers_eq_listAnswers (options : Options) (calls : List StoreCall)
    (hfits : ∀ call ∈ calls, call.Fits) :
    answers calls { options } = listAnswers calls [] ∧
      ∀ before index after, calls = before ++ get index :: after →
        (answers calls { options }).drop (before.length + 1) =
          (answers (before ++ after) { options }).drop before.length := by
  have hnew : RowStore.Holds { options } [] := RowStore.holds_of_spill_eq_none rfl rfl
  refine ⟨answers_eq_listAnswers_of_holds hnew rfl hfits, ?_⟩
  rintro before index after rfl
  -- On a list a `get` changes nothing, so the answers with it and without it are those of lists.
  have hothers : ∀ call ∈ before ++ after, call.Fits := by
    intro call hcall
    refine hfits call ?_
    rcases List.mem_append.mp hcall with hbefore | hafter
    · exact List.mem_append_left _ hbefore
    · exact List.mem_append_right _ (List.mem_cons_of_mem _ hafter)
  rw [answers_eq_listAnswers_of_holds hnew rfl hfits,
    answers_eq_listAnswers_of_holds hnew rfl hothers, listAnswers_append, listAnswers_append,
    List.drop_left' (length_listAnswers before []), ← List.drop_drop,
    List.drop_left' (length_listAnswers before [])]
  rfl

/-- Two rows that both go to the file, on pages of one row each. -/
theorem answers_of_two_spilled_rows :
    answers [append [.integer 1], append [.null .text], get 1, get 2, get 0, release, get 0]
        { options := { memory := 0, pageRows := 1 } } =
      [(.ok none, 1), (.ok none, 2), (.ok (some [.null .text]), 2),
        (.error (.internal "buffer row 2 out of range (len=2)"), 2),
        (.ok (some [.integer 1]), 2), (.ok none, 0),
        (.error (.internal "buffer row 0 out of range (len=0)"), 0)] :=
  (answers_eq_listAnswers { memory := 0, pageRows := 1 } _ (by decide)).1.trans rfl

end StoreCall

end SqlWindow
