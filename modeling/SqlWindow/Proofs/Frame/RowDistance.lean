import SqlWindow.Frame.RowDistance
import SqlWindow.Proofs.Frame.Held
import SqlWindow.Proofs.Row.Between

set_option autoImplicit false

/-! # Windows by row distance

The window of row `i` has the rows `j` with `i + lower ≤ j ≤ i + upper`, in exact integer
arithmetic. From row to row both of its ends move forward only, so the frame slides from one
window to the next and holds exactly the rows of each.
-/

namespace SqlWindow

/-! ## Bounds -/

/-- The signed distance, counted in rows, at which a bound lies: a literal is its own distance, the
current row is no row away, and an unbounded end has no distance. -/
inductive FrameBound.LiesAt : FrameBound → Option Int64 → Prop
  | literal (k : Int64) : LiesAt (.distance (.literal (.integer k))) (some k)
  | currentRow : LiesAt .currentRow (some 0)
  | unboundedPreceding : LiesAt .unboundedPreceding none
  | unboundedFollowing : LiesAt .unboundedFollowing none

namespace FrameBound.LiesAt

variable {bound : FrameBound} {d d' : Option Int64} {n : Int64}

theorem unique (h : bound.LiesAt d) (h' : bound.LiesAt d') : d = d' := by
  cases h <;> cases h' <;> rfl

/-- `n FOLLOWING` lies `n` rows ahead. -/
theorem following (n : Int64) : LiesAt (.following n) (some n) := .literal n

/-- `n PRECEDING` lies `n` rows back. -/
theorem preceding (h : n ≠ Int64.minValue) : LiesAt (.preceding n) (some (-n)) := by
  have hmin : n.toInt ≠ Int64.minValue.toInt := fun heq => h (Int64.toInt_inj.mp heq)
  have hends : Int64.minValue.toInt + Int64.maxValue.toInt = -1 := by decide
  have hleast : Int64.minValue.toInt ≤ n.toInt := Int64.minValue_le_toInt n
  have hgreatest : n.toInt ≤ Int64.maxValue.toInt := Int64.toInt_le n
  have hneg : Int64.ofIntClamp (-n.toInt) = -n := by
    rw [Int64.ofIntClamp, dif_pos (by omega), dif_pos (by omega), Int64.ofIntLE_eq_ofInt,
      Int64.ofInt_neg, Int64.ofInt_toInt]
  rw [← hneg]
  exact .literal _

end FrameBound.LiesAt

namespace RowDistance

/-- A ROWS frame measures its bounds as they lie. -/
theorem distance?_eq_ok_iff {bound : FrameBound} {d : Option Int64} :
    distance? bound = .ok d ↔ bound.LiesAt d := by
  constructor
  · intro h
    unfold distance? at h
    split at h <;> cases h <;> constructor
  · rintro (_ | _ | _ | _) <;> rfl

/-! ## Windows -/

variable {η : Type} {f f₀ : RowDistance η} {i j : Nat} {rows : List Row}

/-- Row `j` lies between two signed distances of row `i`; a missing distance sets no bound. -/
def isWithin (lower upper : Option Int64) (i j : Nat) : Bool :=
  (lower.all fun k => (i : Int) + k.toInt ≤ j) && (upper.all fun k => (j : Int) ≤ i + k.toInt)

/-- The rows of a partition between two signed distances of row `i`. -/
def rowsWithin (lower upper : Option Int64) (i : Nat) (rows : List Row) : List Row :=
  (rows.zipIdx.filter fun p => isWithin lower upper i p.2).map Prod.fst

theorem clampPosition_mono {i j : Int} (h : i ≤ j) (length : Nat) :
    clampPosition length i ≤ clampPosition length j := by
  unfold clampPosition
  omega

theorem window_le (f : RowDistance η) (i : Nat) : (f.window i).1 ≤ (f.window i).2 :=
  Nat.le_max_left _ _

theorem window_fst_le (f : RowDistance η) (i : Nat) : (f.window i).1 ≤ f.length := by
  unfold window
  cases f.lower with
  | none => exact Nat.zero_le _
  | some k => exact Nat.min_le_right _ _

theorem window_snd_le (f : RowDistance η) (i : Nat) : (f.window i).2 ≤ f.length := by
  refine Nat.max_le.mpr ⟨window_fst_le f i, ?_⟩
  cases f.upper with
  | none => exact Nat.le_refl _
  | some k => exact Nat.min_le_right _ _

theorem window_fst_of_lower_eq_none (h : f.lower = none) (i : Nat) : (f.window i).1 = 0 := by
  simp only [window, h]

theorem window_fst_mono (f : RowDistance η) (h : i ≤ j) : (f.window i).1 ≤ (f.window j).1 := by
  unfold window
  cases f.lower with
  | none => exact Nat.le_refl _
  | some k => exact clampPosition_mono (by omega) _

theorem window_snd_mono (f : RowDistance η) (h : i ≤ j) : (f.window i).2 ≤ (f.window j).2 := by
  have hfst := window_fst_mono f h
  unfold window at hfst ⊢
  refine Nat.max_le.mpr ⟨Nat.le_trans hfst (Nat.le_max_left _ _), ?_⟩
  refine Nat.le_trans ?_ (Nat.le_max_right _ _)
  cases f.upper with
  | none => exact Nat.le_refl _
  | some k => exact clampPosition_mono (by omega) _

/-- **The window.** Of the rows of the partition it has those within the two distances. -/
theorem mem_window_iff (hj : j < f.length) :
    isWithin f.lower f.upper i j ↔ (f.window i).1 ≤ j ∧ j < (f.window i).2 := by
  unfold window isWithin clampPosition
  cases f.lower <;> cases f.upper <;> simp <;> omega

theorem rowsWithin_eq (h : f.length = rows.length) (i : Nat) :
    rowsWithin f.lower f.upper i rows = rowsBetween rows (f.window i).1 (f.window i).2 :=
  filter_zipIdx_eq_rowsBetween fun _ hj => mem_window_iff (h ▸ hj)

/-! ## Sliding from row to row -/

/-- The window that the frame has moved on to before row `i`; before the first row it is empty. -/
def windowBefore (f : RowDistance η) : Nat → Nat × Nat
  | 0 => (0, 0)
  | i + 1 => f.window i

theorem windowBefore_fst_le (f : RowDistance η) (i : Nat) :
    (f.windowBefore i).1 ≤ (f.window i).1 := by
  cases i with
  | zero => exact Nat.zero_le _
  | succ i => exact window_fst_mono f (Nat.le_succ i)

theorem windowBefore_snd_le (f : RowDistance η) (i : Nat) :
    (f.windowBefore i).2 ≤ (f.window i).2 := by
  cases i with
  | zero => exact Nat.zero_le _
  | succ i => exact window_snd_mono f (Nat.le_succ i)

/-- The prepared frame `f₀` has come to row `i`: it is where the row before has left it, and of
its tally `K i` is known. -/
def Reached (K : Nat → Nat → Nat → η → Prop) (f₀ : RowDistance η) (i : Nat) (f : RowDistance η) :
    Prop :=
  ∃ held, f = { f₀ with held } ∧
    held.Holds (K i) (f₀.windowBefore i).1 (f₀.windowBefore i).2

variable {K : Nat → Nat → Nat → η → Prop}

theorem reached_zero (h : f₀.held.Holds (K 0) 0 0) : Reached K f₀ 0 f₀ := ⟨f₀.held, rfl, h⟩

theorem reads_onHeld {x : Action (Held η × RowStore) Unit} {h : Held η}
    (hx : Reads rows x f.held () h) : Reads rows (onHeld x) f () { f with held := h } :=
  @Reads.onPart _ _ _ _ f () held (fun f h => { f with held := h }) x h hx

variable [Tally η]

/-- From what is known before row `i`, the slide to its window leads on to what is known behind
it. -/
def Slides (rows : List Row) (K : Nat → Nat → Nat → η → Prop) (f₀ : RowDistance η) (i : Nat) :
    Prop :=
  ∀ h : Held η, h.Holds (K i) (f₀.windowBefore i).1 (f₀.windowBefore i).2 →
    ∃ h', Reads rows (Held.slide (f₀.window i).1 (f₀.window i).2) h () h' ∧
      h'.Holds (K (i + 1)) (f₀.window i).1 (f₀.window i).2

/-- **One row.** The values for row `i` are those of a tally that has moved on to its window. -/
theorem exists_process (hslides : Slides rows K f₀ i) (hf : Reached K f₀ i f) :
    ∃ g t, Reads rows (process i) f (Tally.values t) g ∧
      K (i + 1) (f₀.window i).1 (f₀.window i).2 t ∧ Reached K f₀ (i + 1) g := by
  obtain ⟨h, rfl, hh⟩ := hf
  obtain ⟨h', hslide, hh'⟩ := hslides h hh
  refine ⟨{ f₀ with held := h' }, h'.tally, ?_, hh'.tally, h', rfl, hh'⟩
  exact .get fun s _ => .bind (reads_onHeld hslide) (.get fun s _ => .pure _ _)

/-- A predicate that follows rows coming in and, where the frame has a lower bound, going out
holds of every window in turn. -/
theorem slides_of_follows {canRemove : Prop} {H : Nat → Nat → η → Prop}
    (hH : Tally.Follows rows canRemove H) (hlength : f₀.length = rows.length)
    (hcan : f₀.lower = none ∨ canRemove) (i : Nat) : Slides rows (fun _ => H) f₀ i := by
  intro h hh
  have hlo := windowBefore_fst_le f₀ i
  -- Without a lower bound the window starts at the first row, and none goes out.
  have hfixed : (f₀.window i).1 = (f₀.windowBefore i).1 ∨ canRemove :=
    hcan.imp_left fun hlower => by
      have hzero := window_fst_of_lower_eq_none hlower i
      omega
  exact Held.exists_slide hH hh hfixed hlo (windowBefore_snd_le f₀ i) (window_le f₀ i)
    (hlength ▸ window_snd_le f₀ i)

end RowDistance

end SqlWindow
