import SqlWindow.Proofs.Answer
import SqlWindow.Proofs.Function.Contents
import SqlWindow.Spec.Call

set_option autoImplicit false

/-! # The functions of the built-in registry

A function that the built-in registry creates is one of the built-in functions as they are
before any row, under the name it is asked for or the upper case of that. Configuring it with
the literal arguments of a call leaves it as new, and only NTILE takes anything from them.
-/

namespace SqlWindow

variable {σ : Type}

namespace Registry

variable {name : String} {a : Accumulator σ}

theorem mem_insertEntry {key : String} {entries : List (String × Accumulator σ)}
    {p : String × Accumulator σ} (h : p ∈ insertEntry key a entries) :
    p = (key, a) ∨ p ∈ entries := by
  induction entries with
  | nil => exact .inl (List.mem_singleton.mp h)
  | cons q rest ih =>
    obtain ⟨k, b⟩ := q
    rw [insertEntry] at h
    split at h
    · exact List.mem_cons.mp h
    · rcases List.mem_cons.mp h with h | h
      · exact .inl h
      · exact .inr (List.mem_cons_of_mem _ h)
    · rcases List.mem_cons.mp h with rfl | h
      · exact .inr List.mem_cons_self
      · exact (ih h).imp_right (List.mem_cons_of_mem _)

/-- Functions are entered under their upper-case names. -/
theorem mem_foldl_insert {as : List (Accumulator σ)} {r : Registry σ}
    {p : String × Accumulator σ} (h : p ∈ (as.foldl insert r).entries) :
    p ∈ r.entries ∨ p.2 ∈ as ∧ p.1 = uppercase p.2.name := by
  induction as generalizing r with
  | nil => exact .inl h
  | cons b as ih =>
    rcases ih h with h | ⟨hmem, hname⟩
    · rcases mem_insertEntry h with rfl | h
      · exact .inr ⟨List.mem_cons_self, rfl⟩
      · exact .inl h
    · exact .inr ⟨List.mem_cons_of_mem _ hmem, hname⟩

theorem mem_of_find? {r : Registry σ} (h : r.find? name = some a) :
    (name, a) ∈ r.entries ∨ (uppercase name, a) ∈ r.entries := by
  have hlookup {key : String} (hkey : r.entries.lookup key = some a) : (key, a) ∈ r.entries := by
    obtain ⟨front, back, hentries, -⟩ := List.lookup_eq_some_iff.mp hkey
    rw [hentries]
    exact List.mem_append_right _ List.mem_cons_self
  exact (Option.or_eq_some_iff.mp h).imp hlookup fun h => hlookup h.2

theorem find?_of_create {r : Registry σ} (h : r.create name = .ok a) : r.find? name = some a := by
  unfold create at h
  split at h
  · rename_i hfind
    rw [hfind, Except.ok.inj h]
  · cases h

/-- What holds of all functions of a registry holds of those it creates. -/
theorem of_create {Q : Accumulator σ → Prop} {r : Registry σ} (h : ∀ p ∈ r.entries, Q p.2)
    (ha : r.create name = .ok a) : Q a := by
  rcases mem_of_find? (find?_of_create ha) with hmem | hmem
  · exact h _ hmem
  · exact h _ hmem

theorem uppercase_name_of_mem_builtins (h : a ∈ Accumulator.builtins) :
    uppercase a.name = a.name := by
  -- The names are few, so they are put into upper case one by one.
  have hnames : ∀ name ∈ ["COUNT", "SUM", "AVG", "MIN", "MAX", "CUME_DIST", "NTILE", "LEAD", "LAG"],
      uppercase name = name := by
    decide +kernel
  refine hnames a.name ?_
  exact List.mem_map_of_mem (f := Accumulator.name) h

/-- **Creating.** A created function is a built-in one, and it has the name it is asked for or
the upper case of that. -/
theorem mem_builtins_of_create (h : (builtin : Registry σ).create name = .ok a) :
    a ∈ Accumulator.builtins ∧ (a.name = name ∨ a.name = uppercase name) := by
  have hentry {key : String} (hkey : (key, a) ∈ (builtin : Registry σ).entries) :
      a ∈ Accumulator.builtins ∧ a.name = key := by
    rcases mem_foldl_insert hkey with hkey | ⟨hmem, hname⟩
    · cases hkey
    · exact ⟨hmem, by rw [← uppercase_name_of_mem_builtins hmem]; exact hname.symm⟩
  rcases mem_of_find? (find?_of_create h) with h | h
  · exact (hentry h).imp_right .inl
  · exact (hentry h).imp_right .inr

theorem entries_builtin : (builtin : Registry σ).entries =
    [("AVG", .avg {}), ("COUNT", .count 0), ("CUME_DIST", .cumeDist {}), ("LAG", .lag .unknown),
     ("LEAD", .lead .unknown), ("MAX", .max []), ("MIN", .min []), ("NTILE", .ntile {}),
     ("SUM", .sum {})] := by
  cbv

theorem lookup_builtin_of_mem (h : a ∈ Accumulator.builtins) :
    (builtin : Registry σ).entries.lookup a.name = some a := by
  unfold Accumulator.builtins at h
  simp only [List.mem_cons, List.not_mem_nil, or_false] at h
  rw [entries_builtin]
  rcases h with rfl | rfl | rfl | rfl | rfl | rfl | rfl | rfl | rfl <;> rfl

theorem create_builtin_of_mem (h : a ∈ Accumulator.builtins) :
    (builtin : Registry σ).create a.name = .ok a := by
  rw [create, find?, lookup_builtin_of_mem h]
  rfl

end Registry

namespace Accumulator

variable {a b : Accumulator σ} {arguments : List Value}

theorem isNew_of_mem_builtins (h : a ∈ builtins) : a.IsNew := by
  unfold builtins at h
  simp only [List.mem_cons, List.not_mem_nil, or_false] at h
  rcases h with rfl | rfl | rfl | rfl | rfl | rfl | rfl | rfl | rfl <;> exact ⟨trivial, rfl⟩

/-- Configuring NTILE gives it a number of buckets. -/
theorem buckets_of_configure {s t : Ntile} (h : s.configure arguments = .ok t) :
    t = { s with buckets := t.buckets } := by
  unfold Ntile.configure at h
  split at h
  · cases h
  · split at h
    · cases h
      rfl
    · cases h
  · cases h

/-- A built-in function that is configured has its new name and is as new. -/
theorem IsNew.configure (h : a.IsNew) (hab : Accumulator.configure arguments a = .ok () b) :
    b.IsNew ∧ b.name = a.name := by
  cases a
  case user => exact h.1.elim
  case ntile s =>
    simp only [Accumulator.configure] at hab
    cases ht : s.configure arguments with
    | error e =>
      rw [ht] at hab
      cases hab
    | ok t =>
      rw [ht] at hab
      cases hab
      -- only the buckets are set, and nothing has been seen yet
      have hs : Ntile.mk s.buckets 0 0 = s := by simpa [renew] using h.2
      rw [buckets_of_configure ht, ← hs]
      exact ⟨⟨trivial, rfl⟩, rfl⟩
  all_goals
    cases hab
    exact ⟨h, rfl⟩

theorem isSizeSensitive_of_configure (h : a.IsBuiltin)
    (hab : Accumulator.configure arguments a = .ok () b) :
    b.isSizeSensitive = a.isSizeSensitive := by
  cases a
  case user => exact h.elim
  case ntile s =>
    simp only [Accumulator.configure] at hab
    cases ht : s.configure arguments <;> rw [ht] at hab <;> cases hab
    rfl
  all_goals
    cases hab
    rfl

end Accumulator

end SqlWindow
