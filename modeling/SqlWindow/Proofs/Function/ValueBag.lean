import SqlWindow.Function.ValueBag
import SqlWindow.Proofs.Value.Order

set_option autoImplicit false

/-! # What a bag holds

`ValueBag.Holds S bag vs` says that the bag is in order and counts, for every value of the set
`S`, how many of the values `vs` are the same. On a set where the order is transitive, inserting
adds a value to `vs`, erasing a value that is held takes one away, and the ends of the bag are
the least and the greatest of `vs`.
-/

namespace SqlWindow

namespace ValueBag

variable {S : Value → Prop}

/-- How often a bag holds a value. -/
def multiplicity (v : Value) : ValueBag → Nat
  | [] => 0
  | (w, n) :: rest => (if v.order w = .eq then n else 0) + multiplicity v rest

/-- The entries are values of the set, in strictly ascending order, each held at least once. -/
structure Sorted (S : Value → Prop) (bag : ValueBag) : Prop where
  mem : ∀ p ∈ bag, S p.1
  pos : ∀ p ∈ bag, 0 < p.2
  ascending : bag.Pairwise fun p q => p.1.order q.1 = .lt

theorem Sorted.tail {p : Value × Nat} {rest : ValueBag} (h : Sorted S (p :: rest)) :
    Sorted S rest where
  mem q hq := h.mem q (List.mem_cons_of_mem p hq)
  pos q hq := h.pos q (List.mem_cons_of_mem p hq)
  ascending := (List.pairwise_cons.mp h.ascending).2

theorem Sorted.cons {p : Value × Nat} {rest : ValueBag} (h : Sorted S rest) (hp : S p.1)
    (hpos : 0 < p.2) (hlt : ∀ q ∈ rest, p.1.order q.1 = .lt) : Sorted S (p :: rest) where
  mem q hq := by
    rcases List.mem_cons.mp hq with rfl | hq
    · exact hp
    · exact h.mem q hq
  pos q hq := by
    rcases List.mem_cons.mp hq with rfl | hq
    · exact hpos
    · exact h.pos q hq
  ascending := List.pairwise_cons.mpr ⟨hlt, h.ascending⟩

/-- A value in front of all entries is not held. -/
theorem multiplicity_eq_zero {v : Value} {bag : ValueBag} (h : ∀ p ∈ bag, v.order p.1 = .lt) :
    multiplicity v bag = 0 := by
  induction bag with
  | nil => rfl
  | cons p rest ih =>
    obtain ⟨w, n⟩ := p
    rw [multiplicity, ih fun q hq => h q (List.mem_cons_of_mem _ hq),
      if_neg (by rw [h (w, n) List.mem_cons_self]; decide)]

/-- A value that is held has an entry. -/
theorem exists_of_multiplicity_pos {v : Value} {bag : ValueBag} (h : 0 < multiplicity v bag) :
    ∃ p ∈ bag, v.order p.1 = .eq := by
  induction bag with
  | nil => cases h
  | cons p rest ih =>
    obtain ⟨w, n⟩ := p
    by_cases heq : v.order w = .eq
    · exact ⟨(w, n), List.mem_cons_self, heq⟩
    · rw [multiplicity, if_neg heq, Nat.zero_add] at h
      obtain ⟨q, hq, hvq⟩ := ih h
      exact ⟨q, List.mem_cons_of_mem _ hq, hvq⟩

/-- An entry counts for its value. -/
theorem le_multiplicity {p : Value × Nat} {bag : ValueBag} (h : p ∈ bag) :
    p.2 ≤ multiplicity p.1 bag := by
  induction bag with
  | nil => cases h
  | cons q rest ih =>
    obtain ⟨w, n⟩ := q
    rw [multiplicity]
    rcases List.mem_cons.mp h with rfl | h
    · rw [if_pos (Value.order_self w)]
      exact Nat.le_add_right _ _
    · exact Nat.le_trans (ih h) (Nat.le_add_left _ _)

/-! ## Inserting -/

theorem mem_insert {v : Value} {bag : ValueBag} {p : Value × Nat} (h : p ∈ insert v bag) :
    p.1 = v ∨ ∃ q ∈ bag, q.1 = p.1 := by
  induction bag with
  | nil => exact .inl (by rw [List.mem_singleton.mp h])
  | cons q rest ih =>
    obtain ⟨w, n⟩ := q
    rw [insert] at h
    split at h
    · rcases List.mem_cons.mp h with rfl | h
      · exact .inl rfl
      · exact .inr ⟨p, h, rfl⟩
    · rcases List.mem_cons.mp h with rfl | h
      · exact .inr ⟨(w, n), List.mem_cons_self, rfl⟩
      · exact .inr ⟨p, List.mem_cons_of_mem _ h, rfl⟩
    · rcases List.mem_cons.mp h with rfl | h
      · exact .inr ⟨(w, n), List.mem_cons_self, rfl⟩
      · rcases ih h with heq | ⟨r, hr, heq⟩
        · exact .inl heq
        · exact .inr ⟨r, List.mem_cons_of_mem _ hr, heq⟩

/-- Where an entry stands for the value already, no other one is opened. -/
theorem mem_insert_of_held (hS : Value.TransitiveOn S) {v : Value} {bag : ValueBag}
    {p : Value × Nat} (h : Sorted S bag) (hv : S v) (hheld : ∃ q ∈ bag, v.order q.1 = .eq)
    (hp : p ∈ insert v bag) : ∃ q ∈ bag, q.1 = p.1 := by
  induction bag with
  | nil =>
    obtain ⟨q, hq, -⟩ := hheld
    cases hq
  | cons q rest ih =>
    obtain ⟨w, n⟩ := q
    have hw : S w := h.mem (w, n) List.mem_cons_self
    obtain ⟨r, hr, hvr⟩ := hheld
    rw [insert] at hp
    split at hp
    -- in front of all entries, none of them stands for the value
    · rename_i hlt
      rcases List.mem_cons.mp hr with rfl | hr
      · rw [hvr] at hlt
        cases hlt
      · have hwr : w.order r.1 = .lt := (List.pairwise_cons.mp h.ascending).1 r hr
        rw [hS.lt_trans hv hw (h.tail.mem r hr) hlt hwr] at hvr
        cases hvr
    · rcases List.mem_cons.mp hp with rfl | hp
      · exact ⟨(w, n), List.mem_cons_self, rfl⟩
      · exact ⟨p, List.mem_cons_of_mem _ hp, rfl⟩
    · rename_i hgt
      rcases List.mem_cons.mp hp with rfl | hp
      · exact ⟨(w, n), List.mem_cons_self, rfl⟩
      · have hrest : r ∈ rest := by
          rcases List.mem_cons.mp hr with rfl | hr
          · rw [hvr] at hgt
            cases hgt
          · exact hr
        obtain ⟨q, hq, heq⟩ := ih h.tail ⟨r, hrest, hvr⟩ hp
        exact ⟨q, List.mem_cons_of_mem _ hq, heq⟩

theorem Sorted.insert (hS : Value.TransitiveOn S) {v : Value} {bag : ValueBag}
    (h : Sorted S bag) (hv : S v) : Sorted S (insert v bag) := by
  induction bag with
  | nil => exact h.cons hv Nat.one_pos (by simp)
  | cons p rest ih =>
    obtain ⟨w, n⟩ := p
    have hw : S w := h.mem (w, n) List.mem_cons_self
    have hrest : ∀ q ∈ rest, w.order q.1 = .lt := (List.pairwise_cons.mp h.ascending).1
    rw [ValueBag.insert]
    split
    -- in front of the first entry, and so of all entries
    · rename_i hlt
      refine h.cons hv Nat.one_pos fun q hq => ?_
      rcases List.mem_cons.mp hq with rfl | hq
      · exact hlt
      · exact hS.lt_trans hv hw (h.tail.mem q hq) hlt (hrest q hq)
    · exact h.tail.cons hw (Nat.succ_pos n) hrest
    · rename_i hgt
      refine (ih h.tail).cons hw (h.pos (w, n) List.mem_cons_self) fun q hq => ?_
      rcases mem_insert hq with heq | ⟨r, hr, heq⟩
      · rw [heq, Value.order_swap, hgt]
        rfl
      · rw [← heq]
        exact hrest r hr

theorem multiplicity_insert (hS : Value.TransitiveOn S) {v w : Value} {bag : ValueBag}
    (h : Sorted S bag) (hv : S v) (hw : S w) :
    multiplicity w (insert v bag) = multiplicity w bag + if w.order v = .eq then 1 else 0 := by
  induction bag with
  | nil => rw [ValueBag.insert, multiplicity, multiplicity, multiplicity, Nat.add_comm]
  | cons p rest ih =>
    obtain ⟨u, n⟩ := p
    have hu : S u := h.mem (u, n) List.mem_cons_self
    rw [ValueBag.insert]
    split
    · rw [multiplicity, Nat.add_comm]
    · rename_i heq
      rw [multiplicity, multiplicity, hS.order_congr_right hw hv hu heq]
      split <;> omega
    · rw [multiplicity, multiplicity, ih h.tail, Nat.add_assoc]

/-! ## Erasing -/

theorem erase?_spec (hS : Value.TransitiveOn S) {v : Value} {bag : ValueBag} (h : Sorted S bag)
    (hv : S v) (hheld : 0 < multiplicity v bag) :
    ∃ rest, erase? v bag = some rest ∧ Sorted S rest ∧ (∀ q ∈ rest, ∃ p ∈ bag, p.1 = q.1) ∧
      ∀ w, S w → multiplicity w rest + (if w.order v = .eq then 1 else 0) = multiplicity w bag := by
  induction bag with
  | nil => cases hheld
  | cons p bag ih =>
    obtain ⟨u, n⟩ := p
    have hu : S u := h.mem (u, n) List.mem_cons_self
    have hpos : 0 < n := h.pos (u, n) List.mem_cons_self
    have hbag : ∀ q ∈ bag, u.order q.1 = .lt := (List.pairwise_cons.mp h.ascending).1
    rw [erase?]
    split
    -- in front of the first entry, and so of all entries, nothing is held
    · rename_i hlt
      have hzero : multiplicity v ((u, n) :: bag) = 0 := multiplicity_eq_zero fun q hq => by
        rcases List.mem_cons.mp hq with rfl | hq
        · exact hlt
        · exact hS.lt_trans hv hu (h.tail.mem q hq) hlt (hbag q hq)
      omega
    -- at the first entry: it counts one less, or goes
    · rename_i heq
      by_cases hmore : 1 < n
      · rw [if_pos hmore]
        refine ⟨(u, n - 1) :: bag, rfl, h.tail.cons hu (by show 0 < n - 1; omega) hbag, ?_, ?_⟩
        · intro q hq
          rcases List.mem_cons.mp hq with rfl | hq
          · exact ⟨(u, n), List.mem_cons_self, rfl⟩
          · exact ⟨q, List.mem_cons_of_mem _ hq, rfl⟩
        · intro w hw
          rw [multiplicity, multiplicity, hS.order_congr_right hw hv hu heq]
          split <;> omega
      · rw [if_neg hmore]
        refine ⟨bag, rfl, h.tail, fun q hq => ⟨q, List.mem_cons_of_mem _ hq, rfl⟩, ?_⟩
        intro w hw
        rw [multiplicity, hS.order_congr_right hw hv hu heq]
        split <;> omega
    -- behind the first entry, which stays
    · rename_i hgt
      rw [multiplicity, if_neg (by rw [hgt]; decide), Nat.zero_add] at hheld
      obtain ⟨rest, herase, hrest, hsub, hcount⟩ := ih h.tail hheld
      refine ⟨(u, n) :: rest, by rw [herase]; rfl, hrest.cons hu hpos ?_, ?_, ?_⟩
      · intro q hq
        obtain ⟨p, hp, heq⟩ := hsub q hq
        rw [← heq]
        exact hbag p hp
      · intro q hq
        rcases List.mem_cons.mp hq with rfl | hq
        · exact ⟨(u, n), List.mem_cons_self, rfl⟩
        · obtain ⟨p, hp, heq⟩ := hsub q hq
          exact ⟨p, List.mem_cons_of_mem _ hp, heq⟩
      · intro w hw
        rw [multiplicity, multiplicity, ← hcount w hw, Nat.add_assoc]

/-- A value that no entry stands for cannot be erased. -/
theorem erase?_eq_none {v : Value} {bag : ValueBag} (h : ∀ p ∈ bag, v.order p.1 ≠ .eq) :
    erase? v bag = none := by
  induction bag with
  | nil => rfl
  | cons p bag ih =>
    obtain ⟨w, n⟩ := p
    rw [erase?]
    split
    · rfl
    · rename_i heq
      exact absurd heq (h (w, n) List.mem_cons_self)
    · rw [ih fun q hq => h q (List.mem_cons_of_mem _ hq)]
      rfl

/-! ## The values held -/

/-- The bag holds the values `vs`, each as often as values the same as it occur among them. -/
structure Holds (S : Value → Prop) (bag : ValueBag) (vs : List Value) : Prop where
  sorted : Sorted S bag
  mem : ∀ v ∈ vs, S v
  count : ∀ w, S w → multiplicity w bag = vs.countP fun v => w.order v == .eq

theorem holds_nil (S : Value → Prop) : Holds S [] [] where
  sorted := ⟨by simp, by simp, List.Pairwise.nil⟩
  mem := by simp
  count _ _ := rfl

theorem Holds.insert (hS : Value.TransitiveOn S) {bag : ValueBag} {vs : List Value} {v : Value}
    (h : Holds S bag vs) (hv : S v) : Holds S (bag.insert v) (vs ++ [v]) where
  sorted := h.sorted.insert hS hv
  mem w hw := by
    rcases List.mem_append.mp hw with hw | hw
    · exact h.mem w hw
    · rw [List.mem_singleton.mp hw]
      exact hv
  count w hw := by
    rw [multiplicity_insert hS h.sorted hv hw, h.count w hw, List.countP_append,
      List.countP_singleton]
    simp

/-- The order of the values does not count. -/
theorem Holds.perm {bag : ValueBag} {vs ws : List Value} (h : Holds S bag vs)
    (hperm : vs.Perm ws) : Holds S bag ws where
  sorted := h.sorted
  mem w hw := h.mem w (hperm.mem_iff.mpr hw)
  count w hw := by rw [h.count w hw, hperm.countP_eq]

/-- A value can be taken back when one that is the same is held, and opens no entry. -/
theorem Holds.remove_of_order_eq (hS : Value.TransitiveOn S) {bag : ValueBag} {vs : List Value}
    {v w : Value} (h : Holds S bag (w :: vs)) (hv : S v) (hvw : v.order w = .eq) :
    ∃ rest, bag.remove v = .ok rest ∧ Holds S rest vs ∧ ∀ q ∈ rest, ∃ p ∈ bag, p.1 = q.1 := by
  have hw : S w := h.mem w List.mem_cons_self
  have hheld : 0 < multiplicity v bag := by
    rw [h.count v hv, List.countP_cons_of_pos (by simp [hvw])]
    exact Nat.succ_pos _
  obtain ⟨rest, herase, hrest, hentries, hcount⟩ := erase?_spec hS h.sorted hv hheld
  refine ⟨rest, by rw [ValueBag.remove, herase], ⟨hrest, ?_, ?_⟩, hentries⟩
  · exact fun u hu => h.mem u (List.mem_cons_of_mem w hu)
  · intro u hu
    have hsum := hcount u hu
    rw [h.count u hu, List.countP_cons, hS.order_congr_right hu hv hw hvw] at hsum
    simp only [beq_iff_eq] at hsum ⊢
    omega

/-- A value that is held can be taken back. -/
theorem Holds.remove (hS : Value.TransitiveOn S) {bag : ValueBag} {vs : List Value} {v : Value}
    (h : Holds S bag (v :: vs)) : ∃ rest, bag.remove v = .ok rest ∧ Holds S rest vs := by
  obtain ⟨rest, hremove, hholds, -⟩ :=
    h.remove_of_order_eq hS (h.mem v List.mem_cons_self) (Value.order_self v)
  exact ⟨rest, hremove, hholds⟩

/-! ## The ends -/

variable {bag : ValueBag} {vs : List Value}

theorem Holds.exists_mem (h : Holds S bag vs) {p : Value × Nat} (hp : p ∈ bag) :
    ∃ v ∈ vs, p.1.order v = .eq := by
  have hcount := h.count p.1 (h.sorted.mem p hp)
  have hle := le_multiplicity hp
  have hpos := h.sorted.pos p hp
  obtain ⟨v, hv, heq⟩ := List.countP_pos_iff.mp (show 0 < vs.countP _ by rw [← hcount]; omega)
  exact ⟨v, hv, eq_of_beq heq⟩

theorem Holds.exists_entry (h : Holds S bag vs) {v : Value} (hv : v ∈ vs) :
    ∃ p ∈ bag, p.1.order v = .eq := by
  have hpos : 0 < vs.countP fun w => v.order w == .eq :=
    List.countP_pos_iff.mpr ⟨v, hv, by simp [Value.order_self]⟩
  rw [← h.count v (h.mem v hv)] at hpos
  obtain ⟨p, hp, heq⟩ := exists_of_multiplicity_pos hpos
  exact ⟨p, hp, by rw [Value.order_swap, heq]; rfl⟩

theorem Holds.eq_nil_iff (h : Holds S bag vs) : bag = [] ↔ vs = [] := by
  constructor
  · rintro rfl
    refine List.eq_nil_iff_forall_not_mem.mpr fun v hv => ?_
    obtain ⟨p, hp, -⟩ := h.exists_entry hv
    cases hp
  · rintro rfl
    refine List.eq_nil_iff_forall_not_mem.mpr fun p hp => ?_
    obtain ⟨v, hv, -⟩ := h.exists_mem hp
    cases hv

/-- A value that is not held is not taken back. -/
theorem Holds.remove_eq_error (hS : Value.TransitiveOn S) (h : Holds S bag vs) {v : Value}
    (hv : S v) (hheld : ¬∃ w ∈ vs, v.same w = true) :
    bag.remove v = .error (.internal s!"retracted value {v.display} was never accumulated") := by
  have hnone : ∀ p ∈ bag, v.order p.1 ≠ .eq := by
    intro p hp hvp
    obtain ⟨w, hw, hpw⟩ := h.exists_mem hp
    refine hheld ⟨w, hw, ?_⟩
    rw [Value.same_iff_order_eq]
    rw [← hvp, hS.order_congr_right hv (h.sorted.mem p hp) (h.mem w hw) hpw]
  rw [ValueBag.remove, erase?_eq_none hnone]

/-- The value is the same as one of the values, and it compares as `o` with none of them: with
`.gt` it is a least one, with `.lt` a greatest one. -/
def IsEnd (o : Ordering) (v : Value) (vs : List Value) : Prop :=
  (∃ w ∈ vs, v.order w = .eq) ∧ ∀ w ∈ vs, v.order w ≠ o

/-- Two values at the same end of the same values are the same. -/
theorem IsEnd.same (hS : Value.TransitiveOn S) {o : Ordering} (ho : o ≠ .eq) {v w : Value}
    (hvs : ∀ u ∈ vs, S u) (hv : S v) (hw : S w) (h : IsEnd o v vs) (h' : IsEnd o w vs) :
    v.same w = true := by
  obtain ⟨⟨a, ha, hva⟩, hvno⟩ := h
  obtain ⟨⟨b, hb, hwb⟩, hwno⟩ := h'
  have hwv : w.order v ≠ o := hS.order_congr_right hw hv (hvs a ha) hva ▸ hwno a ha
  have hvw : v.order w ≠ o := hS.order_congr_right hv hw (hvs b hb) hwb ▸ hvno b hb
  rw [Value.order_swap] at hwv
  rw [Value.same_iff_order_eq]
  cases o <;> cases horder : v.order w <;> simp_all

/-- The least value of a bag is the least of the values held. -/
theorem Holds.least (hS : Value.TransitiveOn S) (h : Holds S bag vs) (hne : vs ≠ []) :
    S bag.least ∧ IsEnd .gt bag.least vs := by
  cases bag with
  | nil => exact absurd (h.eq_nil_iff.mp rfl) hne
  | cons p rest =>
    have hp : S p.1 := h.sorted.mem p List.mem_cons_self
    refine ⟨hp, h.exists_mem List.mem_cons_self, fun v hv => ?_⟩
    obtain ⟨q, hq, heq⟩ := h.exists_entry hv
    show p.1.order v ≠ .gt
    rw [← hS.order_congr_right hp (h.sorted.mem q hq) (h.mem v hv) heq]
    rcases List.mem_cons.mp hq with rfl | hq
    · rw [Value.order_self]
      decide
    · rw [(List.pairwise_cons.mp h.sorted.ascending).1 q hq]
      decide

/-- The greatest value of a bag is the greatest of the values held. -/
theorem Holds.greatest (hS : Value.TransitiveOn S) (h : Holds S bag vs) (hne : vs ≠ []) :
    S bag.greatest ∧ IsEnd .lt bag.greatest vs := by
  rcases List.eq_nil_or_concat bag with rfl | ⟨front, p, rfl⟩
  · exact absurd (h.eq_nil_iff.mp rfl) hne
  · rw [List.concat_eq_append] at h ⊢
    have hmem : p ∈ front ++ [p] := List.mem_append_right _ List.mem_cons_self
    have hgreatest : greatest (front ++ [p]) = p.1 := by
      rw [ValueBag.greatest, List.getLast?_concat]
    have hp : S p.1 := h.sorted.mem p hmem
    rw [hgreatest]
    refine ⟨hp, h.exists_mem hmem, fun v hv => ?_⟩
    obtain ⟨q, hq, heq⟩ := h.exists_entry hv
    rw [← hS.order_congr_right hp (h.sorted.mem q hq) (h.mem v hv) heq, Value.order_swap]
    rcases List.mem_append.mp hq with hq | hq
    · rw [(List.pairwise_append.mp h.sorted.ascending).2.2 q hq p List.mem_cons_self]
      decide
    · rw [List.mem_singleton.mp hq, Value.order_self]
      decide

end ValueBag

end SqlWindow
