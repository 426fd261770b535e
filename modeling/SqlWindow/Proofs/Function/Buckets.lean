import Mathlib.Algebra.Order.Ring.Nat
import Mathlib.Tactic.Ring
import SqlWindow.Function.Ntile

set_option autoImplicit false

/-! # Buckets of equal size

NTILE deals rows out to buckets in their order. `Ntile.dealt n rows k` is the number of rows that
have been dealt out when the first `k` of `n` buckets are full; row number `r` goes into the bucket
where this number passes `r`. That each bucket has its size, that none is skipped and that the last
one is reached are facts about `dealt` and are proved on it.

The bucket itself is computed with 64-bit integers. `Ntile.bucketOf?` takes the same steps, but
stops at a division by zero and at a number that is no 64-bit integer. It never stops, and so what
is computed is the bucket where the row belongs.
-/

namespace SqlWindow

namespace Ntile

/-! ## Dealing out rows -/

/-- The number of rows in the first `k` of `n` buckets, where `rows` rows are dealt out. -/
def dealt (n rows k : Nat) : Nat := k * (rows / n) + min k (rows % n)

variable {n rows k l r : Nat}

theorem dealt_zero (n rows : Nat) : dealt n rows 0 = 0 := by simp [dealt]

/-- The number of rows in bucket number `k + 1`: an equal share, and one of the rest for each of the
first buckets. -/
def share (n rows k : Nat) : Nat := if k < rows % n then rows / n + 1 else rows / n

theorem dealt_succ (n rows k : Nat) :
    dealt n rows (k + 1) = dealt n rows k + share n rows k := by
  have hequal : (k + 1) * (rows / n) = k * (rows / n) + rows / n := Nat.succ_mul k (rows / n)
  unfold dealt share
  split <;> omega

/-- In the end all rows have been dealt out. -/
theorem dealt_self (hn : 0 < n) (rows : Nat) : dealt n rows n = rows := by
  have hrest := Nat.mod_lt rows hn
  have hall := Nat.div_add_mod rows n
  unfold dealt
  omega

theorem monotone_dealt (n rows : Nat) : Monotone (dealt n rows) :=
  monotone_nat_of_le_succ fun k => by
    rw [dealt_succ]
    exact Nat.le_add_right _ _

/-- Where there are no fewer rows than buckets, no bucket is empty. -/
theorem share_pos (hn : 0 < n) (h : n ≤ rows) (k : Nat) : 0 < share n rows k := by
  have hequal : 0 < rows / n := Nat.div_pos h hn
  unfold share
  split
  · exact Nat.succ_pos _
  · exact hequal

/-- Where there are fewer rows than buckets, each row has a bucket of its own. -/
theorem dealt_of_lt (h : rows < n) (k : Nat) : dealt n rows k = min k rows := by
  rw [dealt, Nat.div_eq_of_lt h, Nat.mod_eq_of_lt h, Nat.mul_zero, Nat.zero_add]

/-- Row number `r` goes into bucket number `k + 1`. -/
structure Takes (n rows k r : Nat) : Prop where
  lt : k < n
  behind : dealt n rows k < r
  upTo : r ≤ dealt n rows (k + 1)

theorem Takes.eq (h : Takes n rows k r) (h' : Takes n rows l r) : k = l := by
  have hnot {i j : Nat} (hi : Takes n rows i r) (hj : Takes n rows j r) (hij : i < j) : False := by
    have hle : dealt n rows (i + 1) ≤ dealt n rows j := monotone_dealt n rows hij
    have := hi.upTo
    have := hj.behind
    omega
  rcases Nat.lt_trichotomy k l with hlt | heq | hlt
  · exact (hnot h h' hlt).elim
  · exact heq
  · exact (hnot h' h hlt).elim

/-- The first row goes into the first bucket. -/
theorem Takes.eq_zero (h : Takes n rows k 1) : k = 0 := by
  by_contra hne
  have hone : dealt n rows 1 ≤ dealt n rows k := monotone_dealt n rows (by omega)
  have hbehind := h.behind
  have hupTo := h.upTo
  rcases Nat.lt_or_ge rows n with hlt | hge
  · rw [dealt_of_lt hlt] at hbehind hupTo
    omega
  · have hpos := share_pos (Nat.zero_lt_of_lt h.lt) hge 0
    rw [← Nat.zero_add 1, dealt_succ, dealt_zero] at hone
    omega

/-- The next row stays in the bucket or goes into the next one. -/
theorem Takes.step (h : Takes n rows k r) (h' : Takes n rows l (r + 1)) : l = k ∨ l = k + 1 := by
  have hbehind := h.behind
  have hupTo := h.upTo
  have hbehind' := h'.behind
  have hupTo' := h'.upTo
  have hle : k ≤ l := by
    by_contra hlt
    have : dealt n rows (l + 1) ≤ dealt n rows k := monotone_dealt n rows (by omega)
    omega
  by_contra hne
  have hskipped : dealt n rows (k + 2) ≤ dealt n rows l := monotone_dealt n rows (by omega)
  -- bucket number `k + 2` would be empty, with a row behind it
  rcases Nat.lt_or_ge rows n with hlt | hge
  · simp only [dealt_of_lt hlt] at hbehind' hupTo' hskipped hbehind hupTo
    omega
  · have hpos := share_pos (Nat.zero_lt_of_lt h.lt) hge (k + 1)
    rw [dealt_succ] at hskipped
    omega

/-- The last row goes into the last bucket, or with too few rows into the one of its own number. -/
theorem Takes.last (h : Takes n rows k rows) : k + 1 = min n rows := by
  have hlt := h.lt
  have hbehind := h.behind
  have hupTo := h.upTo
  rcases Nat.lt_or_ge rows n with hfew | hge
  · rw [dealt_of_lt hfew] at hbehind hupTo
    omega
  · by_contra hne
    have hn : 0 < n := Nat.zero_lt_of_lt hlt
    have hpos := share_pos hn hge (k + 1)
    have hle : dealt n rows (k + 2) ≤ dealt n rows n := monotone_dealt n rows (by omega)
    rw [dealt_succ, dealt_self hn] at hle
    omega

/-- The number of rows in the larger buckets and some of the others. -/
theorem dealt_mod_add (n rows k : Nat) :
    dealt n rows (rows % n + k) = rows % n * (rows / n + 1) + k * (rows / n) := by
  rw [dealt, Nat.min_eq_right (Nat.le_add_right _ _)]
  ring

/-- Among the larger buckets rows go by the size of those. -/
theorem takes_of_le (hn : 0 < n) (hr : 1 ≤ r) (h : r ≤ rows % n * (rows / n + 1)) :
    Takes n rows ((r - 1) / (rows / n + 1)) r := by
  have hpos : 0 < rows / n + 1 := Nat.succ_pos _
  have hlt : (r - 1) / (rows / n + 1) < rows % n := by
    rw [Nat.div_lt_iff_lt_mul hpos]
    omega
  have hdealt {k : Nat} (hk : k ≤ rows % n) : dealt n rows k = k * (rows / n + 1) := by
    rw [dealt, Nat.min_eq_left hk, Nat.mul_succ]
  have hlower := Nat.div_mul_le_self (r - 1) (rows / n + 1)
  have hupper := Nat.lt_mul_of_div_lt (Nat.lt_add_one ((r - 1) / (rows / n + 1))) hpos
  constructor
  · exact hlt.trans (Nat.mod_lt rows hn)
  · rw [hdealt hlt.le]
    omega
  · rw [hdealt (Nat.add_one_le_of_lt hlt)]
    omega

/-- Behind them rows go by the size of the others, which is not zero. -/
theorem takes_of_lt (hn : 0 < n) (h : rows % n * (rows / n + 1) < r) (hr : r ≤ rows) :
    0 < rows / n ∧
      Takes n rows (rows % n + (r - rows % n * (rows / n + 1) - 1) / (rows / n)) r := by
  obtain ⟨others, hothers⟩ := Nat.exists_eq_add_of_le (Nat.mod_lt rows hn).le
  have hall : rows % n * (rows / n + 1) + others * (rows / n) = rows := by
    rw [← dealt_mod_add, ← hothers, dealt_self hn]
  have hpos : 0 < rows / n := by
    by_contra hzero
    rw [Nat.eq_zero_of_not_pos hzero, Nat.mul_zero, Nat.add_zero] at hall
    rw [Nat.eq_zero_of_not_pos hzero] at h
    omega
  have hlt : (r - rows % n * (rows / n + 1) - 1) / (rows / n) < others := by
    rw [Nat.div_lt_iff_lt_mul hpos]
    omega
  have hlower := Nat.div_mul_le_self (r - rows % n * (rows / n + 1) - 1) (rows / n)
  have hupper := Nat.lt_mul_of_div_lt (Nat.lt_add_one
    ((r - rows % n * (rows / n + 1) - 1) / (rows / n))) hpos
  refine ⟨hpos, ?_, ?_, ?_⟩
  · exact Nat.lt_of_lt_of_eq (Nat.add_lt_add_left hlt _) hothers.symm
  · rw [dealt_mod_add]
    omega
  · rw [Nat.add_assoc, dealt_mod_add]
    omega

/-! ## All rows -/

/-- These are the bucket numbers of rows that are dealt out to `n` buckets: they start at 1, rise
by one at most, and end with the last bucket, or with the number of rows where there are fewer; the
first buckets have one row more than the others, and none is empty unless there are fewer rows than
buckets. -/
structure Deals (n : Nat) (buckets : List Nat) : Prop where
  head : buckets.head? = some 1
  step : ∀ i b c, buckets[i]? = some b → buckets[i + 1]? = some c → c = b ∨ c = b + 1
  last : buckets.getLast? = some (min n buckets.length)
  count : ∀ b, 1 ≤ b → b ≤ n → buckets.count b =
    if b ≤ buckets.length % n then buckets.length / n + 1 else buckets.length / n
  empty : ∀ b, 1 ≤ b → b ≤ n → buckets.count b = 0 → buckets.length < n

/-- How many of the first rows are in a bucket. -/
theorem count_take {buckets : List Nat} (hk : k < n)
    (h : ∀ i b, buckets[i]? = some b → ∃ l, b = l + 1 ∧ Takes n rows l (i + 1)) {m : Nat}
    (hm : m ≤ buckets.length) : (buckets.take m).count (k + 1) =
      min m (dealt n rows (k + 1)) - min m (dealt n rows k) := by
  have hle : dealt n rows k ≤ dealt n rows (k + 1) := monotone_dealt n rows (Nat.le_succ k)
  induction m with
  | zero => simp
  | succ m ih =>
    have hget : buckets[m]? = some buckets[m] := List.getElem?_eq_getElem hm
    obtain ⟨l, hl, htakes⟩ := h m _ hget
    have hbehind := htakes.behind
    have hupTo := htakes.upTo
    rw [List.take_add_one, hget, List.count_append, ih (by omega), Option.toList_some,
      List.count_singleton, hl]
    by_cases hlk : l = k
    · subst hlk
      rw [if_pos (beq_self_eq_true _)]
      omega
    · -- row number `m + 1` is before the bucket or behind it
      have hnot : ¬(dealt n rows k < m + 1 ∧ m + 1 ≤ dealt n rows (k + 1)) :=
        fun hin => hlk (htakes.eq ⟨hk, hin.1, hin.2⟩)
      rw [if_neg (by simpa using hlk)]
      omega

/-- **Rows that go where they belong are dealt out.** -/
theorem deals_of_takes {buckets : List Nat} (hn : 0 < n) (hne : buckets ≠ [])
    (h : ∀ i b, buckets[i]? = some b → ∃ k, b = k + 1 ∧ Takes n buckets.length k (i + 1)) :
    Deals n buckets := by
  have hpos : 0 < buckets.length := List.length_pos_iff.mpr hne
  have hcount (k : Nat) (hk : k < n) : buckets.count (k + 1) = share n buckets.length k := by
    have hle : dealt n buckets.length (k + 1) ≤ dealt n buckets.length n :=
      monotone_dealt n buckets.length hk
    have htake := count_take hk h (Nat.le_refl buckets.length)
    rw [dealt_self hn] at hle
    rw [List.take_length, dealt_succ] at htake
    rw [dealt_succ] at hle
    omega
  constructor
  · have hget : buckets[0]? = some buckets[0] := List.getElem?_eq_getElem hpos
    obtain ⟨k, hk, htakes⟩ := h 0 _ hget
    rw [List.head?_eq_getElem?, hget, hk, htakes.eq_zero]
  · intro i b c hb hc
    obtain ⟨k, rfl, htakes⟩ := h i b hb
    obtain ⟨l, rfl, htakes'⟩ := h (i + 1) c hc
    have := htakes.step htakes'
    omega
  · have hget : buckets[buckets.length - 1]? = some buckets[buckets.length - 1] :=
      List.getElem?_eq_getElem (by omega)
    obtain ⟨k, hk, htakes⟩ := h _ _ hget
    rw [Nat.sub_add_cancel hpos] at htakes
    rw [List.getLast?_eq_getElem?, hget, hk, htakes.last]
  · intro b hb hbn
    obtain ⟨k, rfl⟩ := Nat.exists_eq_add_of_le' hb
    rw [hcount k (by omega)]
    rfl
  · intro b hb hbn hzero
    obtain ⟨k, rfl⟩ := Nat.exists_eq_add_of_le' hb
    rw [hcount k (by omega)] at hzero
    by_contra hge
    have hpos := share_pos hn (Nat.le_of_not_lt hge) k
    omega

end Ntile

/-! ## Exact arithmetic on 64-bit integers -/

namespace Exact

/-- The 64-bit integer of this value, if there is one. -/
def ofInt (i : Int) : Option Int64 :=
  if Int64.minValue.toInt ≤ i ∧ i ≤ Int64.maxValue.toInt then some (.ofInt i) else none

/-- The sum, unless it overflows. -/
def add (a b : Int64) : Option Int64 := ofInt (a.toInt + b.toInt)

/-- The difference, unless it overflows. -/
def sub (a b : Int64) : Option Int64 := ofInt (a.toInt - b.toInt)

/-- The product, unless it overflows. -/
def mul (a b : Int64) : Option Int64 := ofInt (a.toInt * b.toInt)

/-- The quotient, unless the divisor is zero or the quotient overflows. -/
def div (a b : Int64) : Option Int64 := if b = 0 then none else ofInt (a.toInt.tdiv b.toInt)

/-- The remainder of a division that succeeds. -/
def mod (a b : Int64) : Option Int64 := (div a b).map fun _ => a % b

variable {a b c : Int64} {x y : Nat}

/-! ### What is exact is what wraps -/

theorem ofInt_eq_some {i : Int} (h : ofInt i = some c) : Int64.ofInt i = c := by
  unfold ofInt at h
  split at h
  · exact Option.some.inj h
  · cases h

theorem add_eq_some (h : add a b = some c) : a + b = c := by
  rw [← ofInt_eq_some h, Int64.ofInt_add, Int64.ofInt_toInt, Int64.ofInt_toInt]

theorem sub_eq_some (h : sub a b = some c) : a - b = c := by
  rw [← ofInt_eq_some h, Int64.ofInt_sub, Int64.ofInt_toInt, Int64.ofInt_toInt]

theorem mul_eq_some (h : mul a b = some c) : a * b = c := by
  rw [← ofInt_eq_some h, Int64.ofInt_mul, Int64.ofInt_toInt, Int64.ofInt_toInt]

theorem div_eq_some (h : div a b = some c) : a / b = c := by
  unfold div at h
  split at h
  · cases h
  · rw [← ofInt_eq_some h, Int64.ofInt_tdiv a.minValue_le_toInt a.toInt_le b.minValue_le_toInt
      b.toInt_le, Int64.ofInt_toInt, Int64.ofInt_toInt]

theorem mod_eq_some (h : mod a b = some c) : a % b = c := by
  obtain ⟨-, -, h⟩ := Option.map_eq_some_iff.mp h
  exact h

/-! ### Natural numbers -/

theorem bind_of_some {α β : Type} {o : Option α} {v : α} {f : α → Option β} (h : o = some v) :
    o >>= f = f v := by
  rw [h]
  rfl

theorem ofInt_natCast (hx : x < 2 ^ 63) : ofInt x = some (.ofNat x) := by
  have hmin : Int64.minValue.toInt = -2 ^ 63 := by decide
  have hmax : Int64.maxValue.toInt = 2 ^ 63 - 1 := by decide
  unfold ofInt
  rw [if_pos (by omega), Int64.ofInt_eq_ofNat]

theorem add_ofNat (h : x + y < 2 ^ 63) : add (.ofNat x) (.ofNat y) = some (.ofNat (x + y)) := by
  rw [add, Int64.toInt_ofNat_of_lt (by omega), Int64.toInt_ofNat_of_lt (by omega),
    ← Int.natCast_add, ofInt_natCast h]

theorem sub_ofNat (hx : x < 2 ^ 63) (h : y ≤ x) :
    sub (.ofNat x) (.ofNat y) = some (.ofNat (x - y)) := by
  rw [sub, Int64.toInt_ofNat_of_lt hx, Int64.toInt_ofNat_of_lt (by omega), ← Int.natCast_sub h,
    ofInt_natCast (by omega)]

theorem add_one (h : x + 1 < 2 ^ 63) : add (.ofNat x) 1 = some (.ofNat (x + 1)) := add_ofNat h

theorem sub_one (hx : x < 2 ^ 63) (h : 1 ≤ x) : sub (.ofNat x) 1 = some (.ofNat (x - 1)) :=
  sub_ofNat hx h

theorem mul_ofNat (hx : x < 2 ^ 63) (hy : y < 2 ^ 63) (h : x * y < 2 ^ 63) :
    mul (.ofNat x) (.ofNat y) = some (.ofNat (x * y)) := by
  rw [mul, Int64.toInt_ofNat_of_lt hx, Int64.toInt_ofNat_of_lt hy, ← Int.natCast_mul,
    ofInt_natCast h]

theorem div_ofNat (hx : x < 2 ^ 63) (hy : y < 2 ^ 63) (hpos : 0 < y) :
    div (.ofNat x) (.ofNat y) = some (.ofNat (x / y)) := by
  have hne : Int64.ofNat y ≠ 0 := by
    intro hzero
    have := congrArg Int64.toInt hzero
    rw [Int64.toInt_ofNat_of_lt hy, Int64.toInt_zero] at this
    omega
  rw [div, if_neg hne, Int64.toInt_ofNat_of_lt hx, Int64.toInt_ofNat_of_lt hy,
    ← Int.ofNat_tdiv, ofInt_natCast (Nat.lt_of_le_of_lt (Nat.div_le_self x y) hx)]

theorem mod_ofNat (hx : x < 2 ^ 63) (hy : y < 2 ^ 63) (hpos : 0 < y) :
    mod (.ofNat x) (.ofNat y) = some (.ofNat (x % y)) := by
  have hrest : Int64.ofNat x % Int64.ofNat y = Int64.ofNat (x % y) := by
    rw [← Int64.toInt_inj, Int64.toInt_mod, Int64.toInt_ofNat_of_lt hx, Int64.toInt_ofNat_of_lt hy,
      Int64.toInt_ofNat_of_lt (Nat.lt_of_le_of_lt (Nat.mod_le x y) hx), Int.ofNat_tmod]
  rw [mod, div_ofNat hx hy hpos, Option.map_some, hrest]

end Exact

/-! ## The bucket of a row -/

namespace Ntile

/-- The bucket of a row among the larger buckets, in steps that stop where a divisor is zero or a
result is no 64-bit integer. -/
def bucketOfLarger? (largerSize row : Int64) : Option Int64 := do
  let before ← Exact.sub row 1
  let full ← Exact.div before largerSize
  Exact.add full 1

/-- The bucket of a row behind the larger buckets, in such steps. -/
def bucketOfOther? (buckets size larger rowsInLarger row : Int64) : Option Int64 := do
  let remaining ← Exact.sub row rowsInLarger
  if 0 < size then
    let before ← Exact.sub remaining 1
    let full ← Exact.div before size
    let bucket ← Exact.add larger full
    Exact.add bucket 1
  else return buckets

/-- The bucket of a row, in such steps. -/
def bucketOf? (buckets total row : Int64) : Option Int64 := do
  let size ← Exact.div total buckets
  let larger ← Exact.mod total buckets
  let largerSize ← Exact.add size 1
  let rowsInLarger ← Exact.mul larger largerSize
  Option.map (min · buckets)
    (if row ≤ rowsInLarger then bucketOfLarger? largerSize row
      else bucketOfOther? buckets size larger rowsInLarger row)

/-- The bucket of the row seen last, computed in steps that stop. -/
def bucket? (s : Ntile) : Option Int64 :=
  bucketOf? s.buckets (max (max s.window s.seen) 1) (max s.seen 1)

variable {n total size largerSize larger rowsInLarger row b : Int64}

theorem of_bucketOfLarger? (h : bucketOfLarger? largerSize row = some b) :
    (row - 1) / largerSize + 1 = b := by
  obtain ⟨before, hbefore, h⟩ := Option.bind_eq_some_iff.mp h
  obtain ⟨full, hfull, h⟩ := Option.bind_eq_some_iff.mp h
  rw [Exact.sub_eq_some hbefore, Exact.div_eq_some hfull, Exact.add_eq_some h]

theorem of_bucketOfOther? (h : bucketOfOther? n size larger rowsInLarger row = some b) :
    (if 0 < size then larger + (row - rowsInLarger - 1) / size + 1 else n) = b := by
  obtain ⟨remaining, hremaining, h⟩ := Option.bind_eq_some_iff.mp h
  by_cases hsize : 0 < size
  · rw [if_pos hsize] at h ⊢
    obtain ⟨before, hbefore, h⟩ := Option.bind_eq_some_iff.mp h
    obtain ⟨full, hfull, h⟩ := Option.bind_eq_some_iff.mp h
    obtain ⟨bucket, hbucket, h⟩ := Option.bind_eq_some_iff.mp h
    rw [Exact.sub_eq_some hremaining, Exact.sub_eq_some hbefore, Exact.div_eq_some hfull,
      Exact.add_eq_some hbucket, Exact.add_eq_some h]
  · rw [if_neg hsize] at h ⊢
    exact Option.some.inj h

/-- **Steps that do not stop** give the bucket. -/
theorem bucketOf_of_bucketOf? (h : bucketOf? n total row = some b) :
    bucketOf n total row = b := by
  obtain ⟨size, hsize, h⟩ := Option.bind_eq_some_iff.mp h
  obtain ⟨larger, hlarger, h⟩ := Option.bind_eq_some_iff.mp h
  obtain ⟨largerSize, hlargerSize, h⟩ := Option.bind_eq_some_iff.mp h
  obtain ⟨rowsInLarger, hrows, h⟩ := Option.bind_eq_some_iff.mp h
  obtain ⟨bucket, hbucket, hmin⟩ := Option.map_eq_some_iff.mp h
  simp only [bucketOf]
  rw [Exact.div_eq_some hsize, Exact.mod_eq_some hlarger, Exact.add_eq_some hlargerSize,
    Exact.mul_eq_some hrows, ← hmin]
  congr 1
  by_cases hle : row ≤ rowsInLarger
  · rw [if_pos hle] at hbucket ⊢
    exact of_bucketOfLarger? hbucket
  · rw [if_neg hle] at hbucket ⊢
    exact of_bucketOfOther? hbucket

/-! ### Nothing overflows -/

variable {k rows r : Nat}

theorem min_ofNat {x y : Nat} (hx : x < 2 ^ 63) (hy : y < 2 ^ 63) :
    min (Int64.ofNat x) (Int64.ofNat y) = Int64.ofNat (min x y) := by
  show (if _ then _ else _) = _
  rw [Nat.min_def]
  by_cases hle : x ≤ y
  · rw [if_pos ((Int64.ofNat_le_iff_le hx hy).mpr hle), if_pos hle]
  · rw [if_neg (fun h => hle ((Int64.ofNat_le_iff_le hx hy).mp h)), if_neg hle]

theorem max_ofNat {x y : Nat} (hx : x < 2 ^ 63) (hy : y < 2 ^ 63) :
    max (Int64.ofNat x) (Int64.ofNat y) = Int64.ofNat (max x y) := by
  show (if _ then _ else _) = _
  rw [Nat.max_def]
  by_cases hle : x ≤ y
  · rw [if_pos ((Int64.ofNat_le_iff_le hx hy).mpr hle), if_pos hle]
  · rw [if_neg (fun h => hle ((Int64.ofNat_le_iff_le hx hy).mp h)), if_neg hle]

theorem bucketOfLarger?_ofNat {q : Nat} (hq : q + 1 < 2 ^ 63) (hr : 1 ≤ r) (hr' : r < 2 ^ 63) :
    bucketOfLarger? (.ofNat (q + 1)) (.ofNat r) = some (.ofNat ((r - 1) / (q + 1) + 1)) := by
  have hfull : (r - 1) / (q + 1) ≤ r - 1 := Nat.div_le_self _ _
  rw [bucketOfLarger?, Exact.bind_of_some (Exact.sub_one hr' hr),
    Exact.bind_of_some (Exact.div_ofNat (by omega) hq (Nat.succ_pos q))]
  exact Exact.add_one (by omega)

theorem bucketOfOther?_ofNat {q m l : Nat} (n : Int64) (hq : 0 < q) (hq' : q < 2 ^ 63) (hl : l < r)
    (hr : r < 2 ^ 63) (hm : m + (r - l - 1) / q + 1 < 2 ^ 63) :
    bucketOfOther? n (.ofNat q) (.ofNat m) (.ofNat l) (.ofNat r) =
      some (.ofNat (m + (r - l - 1) / q + 1)) := by
  have hpos : 0 < Int64.ofNat q := (Int64.ofNat_lt_iff_lt (by decide) hq').mpr hq
  rw [bucketOfOther?, Exact.bind_of_some (Exact.sub_ofNat hr hl.le), if_pos hpos,
    Exact.bind_of_some (Exact.sub_one (by omega) (by omega)),
    Exact.bind_of_some (Exact.div_ofNat (by omega) hq' hq),
    Exact.bind_of_some (Exact.add_ofNat (by omega))]
  exact Exact.add_one hm

/-- **The bucket where a row belongs is found** without an overflow or a division by zero. -/
theorem exists_bucketOf? {n : Nat} (hn : 0 < n) (hn' : n < 2 ^ 63) (hr : 1 ≤ r) (hrows : r ≤ rows)
    (hrows' : rows + 1 < 2 ^ 63) : ∃ k, Takes n rows k r ∧
      bucketOf? (.ofNat n) (.ofNat rows) (.ofNat r) = some (.ofNat (k + 1)) := by
  have hsize : rows / n ≤ rows := Nat.div_le_self rows n
  have hlarger : rows % n ≤ rows := Nat.mod_le rows n
  have hlargerRows : rows % n * (rows / n + 1) ≤ rows := by
    have hle := monotone_dealt n rows (Nat.mod_lt rows hn).le
    rwa [dealt_self hn, ← Nat.add_zero (rows % n), dealt_mod_add, Nat.zero_mul, Nat.add_zero] at hle
  -- what is left to find is the bucket before it is cut to the number of buckets
  have hfound {bucket : Option Int64} {k : Nat} (htakes : Takes n rows k r)
      (hbucket : bucket = some (.ofNat (k + 1))) :
      bucket.map (min · (.ofNat n)) = some (.ofNat (k + 1)) := by
    have hlt := htakes.lt
    rw [hbucket, Option.map_some, min_ofNat (by omega) hn', Nat.min_eq_left hlt]
  rw [bucketOf?, Exact.bind_of_some (Exact.div_ofNat (by omega) hn' hn),
    Exact.bind_of_some (Exact.mod_ofNat (by omega) hn' hn),
    Exact.bind_of_some (Exact.add_one (by omega)),
    Exact.bind_of_some (Exact.mul_ofNat (by omega) (by omega) (by omega))]
  by_cases hle : r ≤ rows % n * (rows / n + 1)
  · rw [if_pos ((Int64.ofNat_le_iff_le (by omega) (by omega)).mpr hle)]
    have htakes := takes_of_le hn hr hle
    exact ⟨_, htakes, hfound htakes (bucketOfLarger?_ofNat (by omega) hr (by omega))⟩
  · rw [if_neg fun h => hle ((Int64.ofNat_le_iff_le (by omega) (by omega)).mp h)]
    obtain ⟨hpos, htakes⟩ := takes_of_lt hn (Nat.lt_of_not_le hle) hrows
    have hlt := htakes.lt
    exact ⟨_, htakes, hfound htakes (bucketOfOther?_ofNat _ hpos (by omega) (Nat.lt_of_not_le hle)
      (by omega) (by omega))⟩

/-- **No overflow.** Whatever the number of buckets, as long as there is one, and however many rows
there are and have been seen, the bucket is found without an overflow or a division by zero, and it
is the bucket where the row seen last belongs; a window counts as having at least the rows that have
been seen, and the first row counts as seen. -/
theorem exists_bucket? {n window seen : Nat} (hn : 0 < n) (hn' : n < 2 ^ 63)
    (hwindow : window + 1 < 2 ^ 63) (hseen : seen + 1 < 2 ^ 63) :
    ∃ k, Takes n (max (max window seen) 1) k (max seen 1) ∧
      bucket? ⟨.ofNat n, .ofNat window, .ofNat seen⟩ = some (.ofNat (k + 1)) := by
  have hone : (1 : Int64) = .ofNat 1 := rfl
  rw [bucket?, hone, max_ofNat (by omega) (by omega), max_ofNat (by omega) (by omega),
    max_ofNat (by omega) (by omega)]
  exact exists_bucketOf? hn hn' (by omega) (by omega) (by omega)

theorem bucket_of_bucket? {s : Ntile} (h : s.bucket? = some b) : s.bucket = b :=
  bucketOf_of_bucketOf? h

/-- A positive 64-bit integer is a natural number. -/
theorem exists_ofNat_eq (h : 0 < n) : ∃ m, 0 < m ∧ m < 2 ^ 63 ∧ n = .ofNat m := by
  have hpos := Int64.lt_iff_toInt_lt.mp h
  have hlt := n.toInt_lt
  rw [Int64.toInt_zero] at hpos
  refine ⟨n.toInt.toNat, by omega, by omega, ?_⟩
  rw [← Int64.ofInt_eq_ofNat, Int.toNat_of_nonneg (by omega), Int64.ofInt_toInt]

theorem buckets_pos_of_configure {arguments : List Value} {s t : Ntile}
    (h : s.configure arguments = .ok t) : 0 < t.buckets := by
  unfold configure at h
  split at h
  · cases h
  · split at h
    · cases h
      assumption
    · cases h
  · cases h

/-- **Configured once, NTILE never overflows**, whatever the size of the window and the number of
rows that have been seen. -/
theorem bucket?_of_configure {arguments : List Value} {s t : Ntile}
    (h : s.configure arguments = .ok t) {window seen : Nat} (hwindow : window + 1 < 2 ^ 63)
    (hseen : seen + 1 < 2 ^ 63) :
    bucket? ⟨t.buckets, .ofNat window, .ofNat seen⟩ =
      some (bucket ⟨t.buckets, .ofNat window, .ofNat seen⟩) := by
  obtain ⟨m, hm, hm', heq⟩ := exists_ofNat_eq (buckets_pos_of_configure h)
  obtain ⟨k, -, hbucket⟩ := exists_bucket? hm hm' hwindow hseen
  rw [heq, hbucket, bucket_of_bucket? hbucket]

end Ntile

end SqlWindow
