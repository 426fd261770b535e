import SqlWindow.Proofs.Function.Buckets
import SqlWindow.Proofs.Group.Folds

set_option autoImplicit false

/-! # NTILE over a growing frame

From the start of the partition up to the current row, what NTILE has seen is the number of the
current row, and the size of its window is the number of rows of the partition. So it deals the
rows of the partition out in their order.
-/

namespace SqlWindow

variable {σ : Type} {types : List DataType}

/-! ## The function -/

namespace Accumulator

theorem accumulateAll_ntile (vs : List Value) (s : Ntile) :
    (ntile s : Accumulator σ).accumulateAll vs =
      ntile { s with seen := s.seen + Int64.ofNat vs.length } := by
  induction vs generalizing s with
  | nil => simp [accumulateAll]
  | cons v vs ih =>
    refine (ih { s with seen := s.seen + 1 }).trans ?_
    rw [List.length_cons, Nat.add_comm, Int64.ofNat_add, ← Int64.add_assoc]
    rfl

end Accumulator

namespace Call

variable {c : Call} {a : Accumulator σ} {n : Int64}

/-- NTILE of a literal has that many buckets, which is a positive number. -/
theorem Accepted.eq_ntile (ha : c.Accepted types Registry.builtin a)
    (hname : uppercase c.name = "NTILE") (hn : c.literals.head? = some (.integer n)) :
    a = .ntile { buckets := n } ∧ 0 < n := by
  obtain ⟨b, hcreate, hconfigure⟩ := configure_of_function ha.function
  have hnew := Accumulator.isNew_of_mem_builtins (Registry.mem_builtins_of_create hcreate).1
  have hb : b.name = "NTILE" := by
    rw [← (hnew.configure hconfigure).2, ha.name_eq, hname]
  cases b with
  | ntile s =>
    have hs : Ntile.mk s.buckets 0 0 = s := by simpa [Accumulator.renew] using hnew.2
    simp only [Accumulator.configure, Ntile.configure, hn] at hconfigure
    by_cases hpos : 0 < n
    · rw [if_pos hpos] at hconfigure
      cases hconfigure
      rw [← hs]
      exact ⟨rfl, hpos⟩
    · rw [if_neg hpos] at hconfigure
      cases hconfigure
  | user => exact hnew.1.elim
  | _ => simp [Accumulator.name] at hb

/-- NTILE accepts every positive number of buckets. -/
theorem check_ntile (hn : 0 < n) :
    (make "NTILE" [.literal (.integer n)]).check types (Registry.builtin : Registry σ) =
      .ok (.ntile { buckets := n }) := by
  have hconfigure : (Accumulator.configure [.integer n]).outcome (.ntile {} : Accumulator σ) =
      (.ok (), .ntile { buckets := n }) := by
    simp only [Action.outcome, Accumulator.configure, Ntile.configure, List.head?_cons, if_pos hn]
  have hupper : uppercase "NTILE" = "NTILE" := by decide +kernel
  have hcreate : (Registry.builtin : Registry σ).create "NTILE" = .ok (.ntile {}) :=
    Registry.create_builtin_of_mem (a := .ntile {}) (by simp [Accumulator.builtins])
  rw [check, make, hupper, Answer.bind_of_ok hcreate]
  show (do
    ((Accumulator.configure [.integer n]).outcome (.ntile {} : Accumulator σ)).1
    return ((Accumulator.configure [.integer n]).outcome (.ntile {} : Accumulator σ)).2) = _
  rw [hconfigure]
  rfl

end Call

/-! ## The rows of a partition -/

namespace WindowGroup

variable {g : WindowGroup}

/-- The value of NTILE for row `i`, which `i` rows are before, is the number of its bucket. -/
theorem exists_result_of_ntile {n rows i : Nat} (hn : 0 < n) (hn' : n < 2 ^ 63) (hi : i < rows)
    (hrows : rows + 1 < 2 ^ 63) {fed : List Value} (hfed : fed.length = i + 1) :
    ∃ k, Ntile.Takes n rows k (i + 1) ∧
      ((Accumulator.setWindowSize rows (.ntile { buckets := .ofNat n } :
        Accumulator σ)).accumulateAll fed).result = .integer (.ofNat (k + 1)) := by
  obtain ⟨k, htakes, hbucket⟩ := @Ntile.exists_bucket? n rows (i + 1) hn hn' hrows (by omega)
  have hwindow : max (max rows (i + 1)) 1 = rows := by omega
  have hseen : max (i + 1) 1 = i + 1 := by omega
  rw [hwindow, hseen] at htakes
  refine ⟨k, htakes, ?_⟩
  show ((Accumulator.ntile _).accumulateAll fed).result = _
  rw [Accumulator.accumulateAll_ntile, hfed]
  have hzero : (0 : Int64) + Int64.ofNat (i + 1) = Int64.ofNat (i + 1) := Int64.zero_add _
  show Value.integer (Ntile.bucket ⟨.ofNat n, .ofNat rows, 0 + .ofNat (i + 1)⟩) = _
  rw [hzero, Ntile.bucket_of_bucket? hbucket]

/-- Numbers of buckets row by row are one way to deal the rows out. -/
theorem exists_buckets_of_rows {n k : Nat} {values : List Row} (hn : 0 < n) (hne : values ≠ [])
    (h : ∀ i : Fin values.length, ∃ b, Ntile.Takes n values.length b (i + 1) ∧
      values[i][k]? = some (.integer (.ofNat (b + 1)))) :
    ∃ buckets : List Nat,
      values.map (fun v => v[k]?) = buckets.map (fun b => some (.integer (.ofNat b))) ∧
      buckets.length = values.length ∧ Ntile.Deals n buckets := by
  choose bucket htakes hvalue using h
  refine ⟨List.ofFn fun i => bucket i + 1, ?_, List.length_ofFn, ?_⟩
  · refine List.ext_getElem (by simp) fun i hi _ => ?_
    rw [List.getElem_map, List.getElem_map, List.getElem_ofFn]
    exact hvalue ⟨i, by simpa using hi⟩
  · refine Ntile.deals_of_takes hn (by simpa using hne) fun i b hb => ?_
    obtain ⟨hi, rfl⟩ := List.getElem?_eq_some_iff.mp hb
    rw [List.length_ofFn] at hi
    refine ⟨bucket ⟨i, hi⟩, List.getElem_ofFn _, ?_⟩
    rw [List.length_ofFn]
    exact htakes ⟨i, hi⟩

/-- The values of NTILE are the numbers of the buckets to which the rows are dealt out. -/
theorem exists_values_of_ntile {position n k : Nat} {c : Call} {rows : List Row} {store : RowStore}
    (hcheck : g.check position types (Registry.builtin : Registry σ) = .ok ())
    (hmode : g.mode = .row) (hlower : g.lower = .unboundedPreceding)
    (hupper : g.upper = .currentRow) (hc : g.calls[k]? = some c)
    (hname : uppercase c.name = "NTILE")
    (harguments : c.arguments = [.literal (.integer (.ofNat n))]) (hn : 0 < n) (hn' : n < 2 ^ 63)
    (hrows : ∀ row ∈ rows, Row.Conforms row types) (hne : rows ≠ [])
    (hlength : rows.length + 1 < 2 ^ 63) (hstore : store.Holds rows) :
    ∃ (values : List Row) (buckets : List Nat),
      g.values (Registry.builtin : Registry σ) store = .ok values ∧
      values.map (fun v => v[k]?) = buckets.map (fun b => some (.integer (.ofNat b))) ∧
      buckets.length = rows.length ∧ Ntile.Deals n buckets := by
  obtain ⟨hoffset, hsort, hunit⟩ := mode_eq_row_iff.mp hmode
  have hrange : g.unit ≠ .range := by
    rw [hunit]
    nofun
  obtain ⟨frames, values, -, hvalues, -, hvaluesLength, hfold⟩ :=
    exists_values_of_folds hcheck hoffset (.inr (.inl hlower)) hrows (fun _ h => absurd h hrange)
      (fun _ h => absurd h hrange) hstore
  obtain ⟨shape, hshape⟩ := (accepted_of_check hcheck).2.2 hoffset
  obtain ⟨a, ha⟩ := hshape.exists_accepted c (List.mem_of_getElem? hc)
  have hliterals : c.literals.head? = some (.integer (.ofNat n)) := by
    rw [Call.literals, harguments]
    rfl
  obtain ⟨rfl, -⟩ := ha.eq_ntile hname hliterals
  have hvaluesNe : values ≠ [] := by
    rw [← List.length_pos_iff, hvaluesLength]
    exact List.length_pos_iff.mpr hne
  obtain ⟨buckets, hbuckets, hcount, hdeals⟩ := exists_buckets_of_rows (k := k) hn hvaluesNe
    fun i => by
      -- the frame of row `i` has `i + 1` rows, and so it is in the bucket of row number `i + 1`
      have hi : i.val < rows.length := by omega
      obtain ⟨b, frame, fed, hb, hframe, hfed, hvalue⟩ :=
        hfold i k rows[i.val] c (List.getElem?_eq_getElem hi) hc
      obtain rfl := Except.ok.inj (ha.function.symm.trans hb)
      have hheld : frame = rowsBetween rows 0 (i + 1) := by
        rw [← RowDistance.rowsWithin_none_zero]
        exact hframe.eq_of_unit_eq_rows hsort hunit (hlower ▸ .unboundedPreceding)
          (hupper ▸ .currentRow)
      have hfedLength : fed.length = i + 1 := by
        have hlengths := congrArg List.length hfed
        rw [List.length_map, List.length_map, hheld, rowsBetween, List.drop_zero,
          List.length_take] at hlengths
        omega
      obtain ⟨k', htakes, hresult⟩ := exists_result_of_ntile (σ := σ) hn hn' hi hlength hfedLength
      rw [hresult, List.getElem?_eq_getElem i.isLt] at hvalue
      rw [← hvaluesLength] at htakes
      exact ⟨k', htakes, hvalue⟩
  exact ⟨values, buckets, hvalues, hbuckets, hcount.trans hvaluesLength, hdeals⟩

/-- **NTILE deals out the rows of a partition.** For every accepted ROWS group from the start of the
partition to the current row, every partition of conforming rows that is not empty, and every call
of NTILE in the group with a positive number of buckets, which may be any 64-bit integer: the bucket
numbers start at 1, rise by one at most from row to row, and end with the last bucket, or with the
number of rows where there are fewer. Of `n` buckets the first `rows % n` have `rows / n + 1` rows
and the others `rows / n`, so that a bucket is empty only where there are more buckets than rows.
NTILE accepts all of these numbers of buckets.

However it has been configured, whatever size the window has and however many rows have been seen,
no step on the way to a bucket divides by zero or leaves the 64-bit integers. Numbers of rows are
smaller than the greatest 64-bit integer, as those of all rows that have a place in memory or, by
their offsets, in a file are. A group without an ordering is no ROWS group: whatever its bounds, the
frame of every row is the whole partition. -/
theorem values_of_ntile {position n k : Nat} {c : Call} {rows : List Row} {store : RowStore}
    (hcheck : g.check position types (Registry.builtin : Registry σ) = .ok ())
    (hmode : g.mode = .row) (hlower : g.lower = .unboundedPreceding)
    (hupper : g.upper = .currentRow) (hc : g.calls[k]? = some c)
    (hname : uppercase c.name = "NTILE")
    (harguments : c.arguments = [.literal (.integer (.ofNat n))]) (hn : 0 < n) (hn' : n < 2 ^ 63)
    (hrows : ∀ row ∈ rows, Row.Conforms row types) (hne : rows ≠ [])
    (hlength : rows.length + 1 < 2 ^ 63) (hstore : store.Holds rows) :
    (∃ (values : List Row) (buckets : List Nat),
      g.values (Registry.builtin : Registry σ) store = .ok values ∧
      values.map (fun v => v[k]?) = buckets.map (fun b => some (.integer (.ofNat b))) ∧
      buckets.length = rows.length ∧ Ntile.Deals n buckets) ∧
    (∀ m : Int64, 0 < m →
      (Call.make "NTILE" [.literal (.integer m)]).check types (Registry.builtin : Registry σ) =
        .ok (.ntile { buckets := m })) ∧
    ∀ (arguments : List Value) (s : Ntile), Ntile.configure {} arguments = .ok s →
      ∀ window seen : Nat, window + 1 < 2 ^ 63 → seen + 1 < 2 ^ 63 →
        Ntile.bucket? ⟨s.buckets, .ofNat window, .ofNat seen⟩ =
          some (Ntile.bucket ⟨s.buckets, .ofNat window, .ofNat seen⟩) := by
  refine ⟨?_, fun m => Call.check_ntile, fun arguments s hs window seen => ?_⟩
  · exact exists_values_of_ntile hcheck hmode hlower hupper hc hname harguments hn hn' hrows hne
      hlength hstore
  · exact Ntile.bucket?_of_configure hs

/-- `NTILE(3) OVER (ORDER BY $0 ASC ROWS BETWEEN UNBOUNDED PRECEDING AND CURRENT ROW)`. -/
def thirds : WindowGroup :=
  { partition := [], sort := [⟨0, true⟩], unit := .rows, lower := .unboundedPreceding,
    upper := .currentRow, calls := [.make "NTILE" [.literal (.integer 3)]] }

theorem values_of_ntile_thirds :
    ∃ (values : List Row) (buckets : List Nat),
      thirds.values (Registry.builtin : Registry Empty)
        { options := {}, rows := #[[.integer 4], [.integer 4], [.integer 5], [.unknown]] } =
          .ok values ∧
      values.map (fun v => v[0]?) = buckets.map (fun b => some (.integer (.ofNat b))) ∧
      buckets.length = 4 ∧ Ntile.Deals 3 buckets :=
  (@values_of_ntile Empty [.integer] thirds 0 3 0 _
    [[.integer 4], [.integer 4], [.integer 5], [.unknown]] _ rfl rfl rfl rfl rfl (by decide +kernel)
    rfl (by decide) (by decide) (by decide) (by decide) (by decide)
    (RowStore.holds_of_spill_eq_none rfl rfl)).1

end WindowGroup

end SqlWindow
