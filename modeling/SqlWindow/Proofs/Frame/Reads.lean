import SqlWindow.Proofs.Store.RowStore

set_option autoImplicit false

/-! # Reading a partition

A frame works beside the store of its partition and does nothing with it but read rows.
`Reads rows x f a g` says that the action `x` takes the state `f` to `g` with the answer `a`
beside every sound store of the rows `rows`, wherever these rows lie, and leaves the store
sound. So what a frame answers is a function of its state and the rows, and the rules below
derive it step by step.
-/

namespace SqlWindow

variable {φ ψ α β : Type} {rows : List Row}

/-- Beside every store of the rows, the action takes the state `f` to `g` and answers `a`. -/
def Reads (rows : List Row) (x : Action (φ × RowStore) α) (f : φ) (a : α) (g : φ) : Prop :=
  ∀ s : RowStore, s.Holds rows →
    ∃ t, x (f, s) = .ok a (g, t) ∧ t.Holds rows ∧ s.SameSetup t

namespace RowStore

theorem SameSetup.refl (s : RowStore) : s.SameSetup s := ⟨rfl, rfl⟩

theorem SameSetup.trans {s t u : RowStore} (h : s.SameSetup t) (h' : t.SameSetup u) :
    s.SameSetup u :=
  ⟨h'.1.trans h.1, h'.2.trans h.2⟩

end RowStore

namespace Reads

variable {f g h : φ} {a a' : α} {b : β}

/-- There is one answer, and one state behind it. -/
theorem unique {x : Action (φ × RowStore) α} (hx : Reads rows x f a g) (hx' : Reads rows x f a' h) :
    a = a' ∧ g = h := by
  have hs : RowStore.Holds { options := {}, rows := rows.toArray } rows :=
    RowStore.holds_of_spill_eq_none rfl rfl
  obtain ⟨t, ht, -⟩ := hx _ hs
  obtain ⟨t', ht', -⟩ := hx' _ hs
  cases ht.symm.trans ht'
  exact ⟨rfl, rfl⟩

theorem pure (a : α) (f : φ) : Reads rows (pure a) f a f :=
  fun s hs => ⟨s, rfl, hs, .refl s⟩

theorem bind {x : Action (φ × RowStore) α} {k : α → Action (φ × RowStore) β}
    (hx : Reads rows x f a g) (hk : Reads rows (k a) g b h) : Reads rows (x >>= k) f b h := by
  intro s hs
  obtain ⟨t, hxt, ht, hst⟩ := hx s hs
  obtain ⟨u, hku, hu, htu⟩ := hk t ht
  exact ⟨u, by rw [Action.bind_of_ok hxt, hku], hu, hst.trans htu⟩

/-- The state and the store are looked at. -/
theorem get {k : φ × RowStore → Action (φ × RowStore) β}
    (hk : ∀ s, s.Holds rows → Reads rows (k (f, s)) f b g) : Reads rows (get >>= k) f b g :=
  fun s hs => hk s hs s hs

/-- The state is changed, the store is not. -/
theorem modify {m : φ × RowStore → φ × RowStore} (hm : ∀ s, m (f, s) = (g, s)) :
    Reads rows (modify m) f ⟨⟩ g :=
  fun s hs => ⟨s, by rw [Action.modify_run, hm], hs, .refl s⟩

theorem ofExcept {e : Except Error α} (he : e = .ok a) : Reads rows (Action.ofExcept e) f a f := by
  rw [he]
  exact Reads.pure a f

/-- A row is read. -/
theorem row {index : Nat} {row : Row} (hrow : rows[index]? = some row) :
    Reads rows (Action.onSecond (RowStore.row index)) f row f := by
  intro s hs
  obtain ⟨t, hrow, ht, hst⟩ := hs.row hrow
  exact ⟨t, Action.onSecond_of_ok hrow, ht, hst⟩

/-- A step that does not look at the store. -/
theorem onFirst {x : Action φ α} (hx : x f = .ok a g) : Reads rows (Action.onFirst x) f a g :=
  fun s hs => ⟨s, Action.onFirst_of_ok hx, hs, .refl s⟩

/-- A step on a part of the state. -/
theorem onPart {part : φ → ψ} {withPart : φ → ψ → φ} {x : Action (ψ × RowStore) α} {p : ψ}
    (hx : Reads rows x (part f) a p) :
    Reads rows (Action.onPart (fun s => (part s.1, s.2)) (fun s q => (withPart s.1 q.1, q.2)) x)
      f a (withPart f p) := by
  intro s hs
  obtain ⟨t, hxt, ht, hst⟩ := hx s hs
  exact ⟨t, by simp only [Action.onPart, hxt], ht, hst⟩

end Reads

end SqlWindow
