import SqlWindow.Proofs.Row.Order
import SqlWindow.Proofs.Row.Partition

set_option autoImplicit false

/-! # Classes of sorted rows

Rows that are sorted by the partition fields, each in either direction, have the rows of one
partition next to each other: a row whose partition fields are not those of the row before it is
behind that row in the ordering, and so behind all rows up to there. Cut where neighbours differ,
the rows fall into the classes of rows with the same partition fields.

`AreClasses` says this of some runs. It is kept when a row joins the last run (`AreClasses.join`)
and when it starts a run of its own (`AreClasses.start`).
-/

namespace SqlWindow

theorem WindowSpec.sameFields_eq_true_iff {fields others : List Nat} :
    sameFields fields others = true ↔ ∀ index, index ∈ fields ↔ index ∈ others := by
  simp only [sameFields, Bool.and_eq_true, List.all_eq_true, List.contains_iff_mem]
  constructor
  · rintro ⟨h, h'⟩ index
    exact ⟨h index, h' index⟩
  · intro h
    exact ⟨fun index => (h index).mp, fun index => (h index).mpr⟩

/-! ## Partition fields and ordering fields -/

theorem SortKey.keyOrder_eq_eq_iff {key : SortKey} {x y : Value} :
    key.keyOrder x y = .eq ↔ Value.keyOrder x y = .eq := by
  unfold SortKey.keyOrder
  cases key.ascending with
  | true => rfl
  | false =>
    show Value.keyOrder y x = .eq ↔ _
    exact Std.OrientedCmp.eq_comm

namespace Row

variable {types : List DataType} {fields others : List Nat} {keys : List SortKey}
  {input run : List Row} {runs closed : List (List Row)} {a b last row : Row}

theorem keyOrder_eq_eq_iff : keyOrder keys a b = .eq ↔
    ∀ key ∈ keys, Value.keyOrder (value a key.index) (value b key.index) = .eq := by
  induction keys with
  | nil => simp [keyOrder]
  | cons key keys ih =>
    rw [keyOrder, Ordering.then_eq_eq, ih, SortKey.keyOrder_eq_eq_iff, List.forall_mem_cons]

section

variable (ha : Row.Conforms a types) (hb : Row.Conforms b types)

include ha hb

/-- Rows are of one partition when the keys of their partition fields are equal. -/
theorem samePartition_eq_true_iff_keyOrder
    (hfields : ∀ index ∈ fields, ∃ type, fieldType types index = .ok type) :
    samePartition fields a b = .ok true ↔
      ∀ index ∈ fields, Value.keyOrder (value a index) (value b index) = .eq := by
  rw [samePartition_eq_true_iff]
  refine forall₂_congr fun index hindex => ?_
  obtain ⟨type, htype⟩ := hfields index hindex
  obtain ⟨hfa, hca⟩ := ha.field_eq htype
  obtain ⟨hfb, hcb⟩ := hb.field_eq htype
  rw [← Value.order_eq_keyOrder_of_conforms hca hcb, ← Value.same_iff_order_eq, hfa, hfb]
  constructor
  · rintro ⟨x, y, ⟨⟩, ⟨⟩, hsame⟩
    exact hsame
  · intro hsame
    exact ⟨_, _, rfl, rfl, hsame⟩

/-- Rows that conform are of one partition or they are not; there is no error. -/
theorem samePartition_eq_false_iff
    (hfields : ∀ index ∈ fields, ∃ type, fieldType types index = .ok type) :
    samePartition fields a b = .ok false ↔ samePartition fields a b ≠ .ok true := by
  obtain ⟨same, hsame⟩ := ha.samePartition hb hfields
  rw [hsame]
  cases same <;> simp

/-- The same fields make the same partitions, whatever their order and however often they are
given. -/
theorem samePartition_congr
    (hfields : ∀ index ∈ fields, ∃ type, fieldType types index = .ok type)
    (hothers : WindowSpec.sameFields fields others = true) :
    samePartition fields a b = samePartition others a b := by
  have hmem := WindowSpec.sameFields_eq_true_iff.mp hothers
  have hfields' : ∀ index ∈ others, ∃ type, fieldType types index = .ok type :=
    fun index hindex => hfields index ((hmem index).mpr hindex)
  obtain ⟨same, hsame⟩ := ha.samePartition hb hfields
  obtain ⟨same', hsame'⟩ := ha.samePartition hb hfields'
  have htrue : same = true ↔ same' = true := by
    have hiff := samePartition_eq_true_iff_keyOrder ha hb hfields
    have hiff' := samePartition_eq_true_iff_keyOrder ha hb hfields'
    rw [hsame, Except.ok.injEq] at hiff
    rw [hsame', Except.ok.injEq] at hiff'
    rw [hiff, hiff']
    exact forall_congr' fun index => by rw [hmem index]
  rw [hsame, hsame', Bool.eq_iff_iff.mpr htrue]

/-- Rows are of one partition when no ordering field tells them apart, where those are the
partition fields. -/
theorem samePartition_eq_true_iff_of_keys
    (hfields : ∀ index ∈ fields, ∃ type, fieldType types index = .ok type)
    (hkeys : WindowSpec.sameFields (keys.map SortKey.index) fields = true) :
    samePartition fields a b = .ok true ↔ keyOrder keys a b = .eq := by
  have hmem := WindowSpec.sameFields_eq_true_iff.mp hkeys
  rw [samePartition_eq_true_iff_keyOrder ha hb hfields, keyOrder_eq_eq_iff]
  constructor
  · intro h key hkey
    exact h key.index ((hmem key.index).mp (List.mem_map_of_mem hkey))
  · intro h index hindex
    obtain ⟨key, hkey, rfl⟩ := List.mem_map.mp ((hmem index).mpr hindex)
    exact h key hkey

end

/-! ## Sorted by the partition fields -/

theorem fieldsExist_of_sameFields
    (hfields : ∀ index ∈ fields, ∃ type, fieldType types index = .ok type)
    (hkeys : WindowSpec.sameFields (keys.map SortKey.index) fields = true) :
    FieldsExist types keys := fun key hkey =>
  hfields key.index ((WindowSpec.sameFields_eq_true_iff.mp hkeys key.index).mp
    (List.mem_map_of_mem hkey))

/-- **Behind the last row of its partition** there is no further row of it: if a row is not of the
partition of the row before it, it is not of that of any row before it. -/
theorem Sorted.samePartition_eq_false
    (hfields : ∀ index ∈ fields, ∃ type, fieldType types index = .ok type)
    (hkeys : WindowSpec.sameFields (keys.map SortKey.index) fields = true)
    (hinput : ∀ r ∈ input ++ [row], Row.Conforms r types) (hsorted : Sorted keys (input ++ [row]))
    (hlast : input.getLast? = some last) (hrow : samePartition fields last row = .ok false) :
    ∀ a ∈ input, samePartition fields a row = .ok false := by
  obtain ⟨init, rfl⟩ := List.getLast?_eq_some_iff.mp hlast
  intro a ha
  have hsort := fieldsExist_of_sameFields hfields hkeys
  have hca := hinput a (List.mem_append_left _ ha)
  have hclast := hinput last (by simp)
  have hcrow := hinput row (by simp)
  rw [samePartition_eq_false_iff hclast hcrow hfields, Ne,
    samePartition_eq_true_iff_of_keys hclast hcrow hfields hkeys] at hrow
  rw [samePartition_eq_false_iff hca hcrow hfields, Ne,
    samePartition_eq_true_iff_of_keys hca hcrow hfields hkeys]
  have hle : (keyOrder keys a last).isLE := by
    obtain ⟨i, hi, rfl⟩ := List.mem_iff_getElem.mp ha
    rw [List.length_append, List.length_singleton] at hi
    refine hsorted.isLE (i := i) (j := init.length) hinput hsort (by omega) ?_ (by simp)
    rw [List.getElem?_append_left (by simpa using hi), List.getElem?_eq_getElem]
  have hlt : keyOrder keys last row = .lt := by
    have hle' : (keyOrder keys last row).isLE :=
      hsorted.isLE (i := init.length) (j := init.length + 1) hinput hsort (by omega) (by simp)
        (by simp)
    cases horder : keyOrder keys last row with
    | lt => rfl
    | eq => exact absurd horder hrow
    | gt => simp [horder] at hle'
  rw [Std.TransCmp.lt_of_isLE_of_lt hle hlt]
  nofun

/-! ## Classes -/

/-- The runs are the classes of the input: joined they are the input, none is empty, the rows of
a run have the same values in these fields, and rows of different runs do not. -/
structure AreClasses (fields : List Nat) (input : List Row) (runs : List (List Row)) : Prop where
  flatten : runs.flatten = input
  ne_nil : ∀ run ∈ runs, run ≠ []
  same : ∀ run ∈ runs, ∀ a ∈ run, ∀ b ∈ run, samePartition fields a b = .ok true
  apart : runs.Pairwise fun run later =>
    ∀ a ∈ run, ∀ b ∈ later, samePartition fields a b = .ok false

theorem areClasses_nil (fields : List Nat) : AreClasses fields [] [] :=
  ⟨rfl, nofun, nofun, .nil⟩

/-- **A row of a new class** starts a run. -/
theorem AreClasses.start (h : AreClasses fields input runs)
    (hself : samePartition fields row row = .ok true)
    (hnew : ∀ a ∈ input, samePartition fields a row = .ok false) :
    AreClasses fields (input ++ [row]) (runs ++ [[row]]) where
  flatten := by rw [List.flatten_append, h.flatten, List.flatten_singleton]
  ne_nil := List.forall_mem_append.mpr ⟨h.ne_nil, by simp⟩
  same := List.forall_mem_append.mpr ⟨h.same, by simpa using hself⟩
  apart := by
    refine List.pairwise_append.mpr ⟨h.apart, List.pairwise_singleton _ _, ?_⟩
    rintro run hrun later hlater a ha b hb
    rw [List.mem_singleton.mp hlater, List.mem_singleton] at hb
    rw [hb]
    exact hnew a (h.flatten ▸ List.mem_flatten.mpr ⟨run, hrun, ha⟩)

/-- **A row of the class of the last run** goes on with it. -/
theorem AreClasses.join (h : AreClasses fields input (closed ++ [run]))
    (hfields : ∀ index ∈ fields, ∃ type, fieldType types index = .ok type)
    (hinput : ∀ r ∈ input ++ [row], Row.Conforms r types) (hlast : last ∈ run)
    (hrow : samePartition fields last row = .ok true) :
    AreClasses fields (input ++ [row]) (closed ++ [run ++ [row]]) := by
  have hconforms {r : Row} {l : List Row} (hl : l ∈ closed ++ [run]) (hr : r ∈ l) :
      Row.Conforms r types :=
    hinput r (List.mem_append_left _ (h.flatten ▸ List.mem_flatten.mpr ⟨l, hl, hr⟩))
  have hrun : run ∈ closed ++ [run] := by simp
  have hcrow : Row.Conforms row types := hinput row (by simp)
  -- every row of the run is of one class with the new one
  have hjoins (r : Row) (hr : r ∈ run) : samePartition fields r row = .ok true :=
    (hconforms hrun hr).samePartition_trans (hconforms hrun hlast) hcrow hfields
      (h.same run hrun r hr last hlast) hrow
  obtain ⟨hclosed, -, hapart⟩ := List.pairwise_append.mp h.apart
  constructor
  · rw [← h.flatten]
    simp
  · exact List.forall_mem_append.mpr
      ⟨fun l hl => h.ne_nil l (List.mem_append_left _ hl), by simp⟩
  · refine List.forall_mem_append.mpr ⟨fun l hl => h.same l (List.mem_append_left _ hl), ?_⟩
    rintro l hl a ha b hb
    rw [List.mem_singleton.mp hl, List.mem_append, List.mem_singleton] at ha hb
    rcases ha with ha | rfl <;> rcases hb with hb | rfl
    · exact h.same run hrun a ha b hb
    · exact hjoins a ha
    · exact samePartition_symm (hjoins b hb)
    · exact hcrow.samePartition_self hfields
  · refine List.pairwise_append.mpr ⟨hclosed, List.pairwise_singleton _ _, ?_⟩
    rintro l hl _ hlater a ha b hb
    have hca := hconforms (List.mem_append_left _ hl) ha
    rw [List.mem_singleton.mp hlater, List.mem_append, List.mem_singleton] at hb
    rcases hb with hb | rfl
    · exact hapart l hl run (List.mem_singleton.mpr rfl) a ha b hb
    · -- a row of the new one's class would be of the class of the last run
      have haway := hapart l hl run (List.mem_singleton.mpr rfl) a ha last hlast
      rw [samePartition_eq_false_iff hca hcrow hfields]
      intro hsame
      rw [hca.samePartition_trans hcrow (hconforms hrun hlast) hfields hsame
        (samePartition_symm hrow)] at haway
      cases haway

/-- The last run has all rows of its class. -/
theorem AreClasses.filter_eq (h : AreClasses fields input (closed ++ [run])) (hlast : last ∈ run)
    {joins : Row → Bool}
    (hjoins : ∀ r ∈ input, joins r = true ↔ samePartition fields r last = .ok true) :
    input.filter joins = run := by
  have hmem {r : Row} {l : List Row} (hl : l ∈ closed ++ [run]) (hr : r ∈ l) : r ∈ input :=
    h.flatten ▸ List.mem_flatten.mpr ⟨l, hl, hr⟩
  have hrun : run ∈ closed ++ [run] := by simp
  have hfront : closed.flatten.filter joins = [] := by
    rw [List.filter_eq_nil_iff]
    intro r hr
    obtain ⟨l, hl, hrl⟩ := List.mem_flatten.mp hr
    have haway := (List.pairwise_append.mp h.apart).2.2 l hl run (List.mem_singleton.mpr rfl) r hrl
      last hlast
    rw [hjoins r (hmem (List.mem_append_left _ hl) hrl), haway]
    nofun
  have hback : run.filter joins = run := by
    rw [List.filter_eq_self]
    intro r hr
    exact (hjoins r (hmem hrun hr)).mpr (h.same run hrun r hr last hlast)
  calc input.filter joins
      = (closed.flatten ++ run).filter joins := by
        rw [← h.flatten, List.flatten_append, List.flatten_singleton]
    _ = run := by rw [List.filter_append, hfront, hback, List.nil_append]

end Row

end SqlWindow
