import SqlWindow.Frame.Basic
import SqlWindow.Proofs.Frame.Plain
import SqlWindow.Proofs.Frame.Reads
import SqlWindow.Proofs.Meets

set_option autoImplicit false

/-! # What the tallies of frames obey

A frame does five things with its tally: rows come in, rows go out, it is cleared, it is told the
number of rows, and its values are read. `Tally.Obeys` says of a property of tallies that it goes
through this, with errors of a known kind; and it does not ask anything of rows that go out unless
the frame takes some back. Whatever tallies obey, frames keep, in whatever order they are asked for
rows and whether they answer them or fail on them.
-/

namespace SqlWindow

open SqlWindow.Action (Maintains Meets)

/-- A property of tallies that holds behind each of their steps, also behind one that fails, and the
errors they fail with. -/
structure Tally.Obeys {η : Type} [Tally η] (canRemove : Prop) (P : η → Prop) (F : Error → Prop) :
    Prop where
  add : ∀ row, Maintains F P (Tally.add row)
  remove : canRemove → ∀ row, Maintains F P (Tally.remove row)
  clear : ∀ t, P t → P (Tally.clear t)

/-- The values are those of a tally with the property. -/
def Tally.Shows {η : Type} [Tally η] (P : η → Prop) (v : Row) : Prop :=
  ∃ t, P t ∧ v = Tally.values t

/-! ## Beside a store -/

/-- The state has the property, and the store beside it holds the rows and is set up as `s₀`. -/
def Alongside {φ : Type} (rows : List Row) (s₀ : RowStore) (G : φ → Prop) (s : φ × RowStore) :
    Prop :=
  G s.1 ∧ s.2.Holds rows ∧ s₀.SameSetup s.2

section

variable {rows : List Row} {s₀ : RowStore} {F : Error → Prop}

namespace RowStore

/-- A store that is read holds what it has held, also where it has no such row. -/
theorem meets_row (hF : ∀ e, e.isAboutRetraction = false → F e) (index : Nat) :
    Meets (fun s : RowStore => s.Holds rows ∧ s₀.SameSetup s)
      (fun row s => rows[index]? = some row ∧ s.Holds rows ∧ s₀.SameSetup s)
      (fun e s => F e ∧ s.Holds rows ∧ s₀.SameSetup s) (row index) := by
  rintro s ⟨hs, hsetup⟩
  cases hrow : rows[index]? with
  | some row =>
    obtain ⟨t, hread, ht, hst⟩ := hs.row hrow
    rw [hread]
    exact .ok ⟨rfl, ht, hsetup.trans hst⟩
  | none =>
    rw [hs.row_of_length_le (List.getElem?_eq_none_iff.mp hrow)]
    exact .error ⟨hF _ rfl, hs, hsetup⟩

/-- A row is added behind the others, or it is refused. -/
theorem meets_append (hF : ∀ e, e.isAboutRetraction = false → F e) (row : Row) :
    Meets (fun s : RowStore => s.Holds rows ∧ s₀.SameSetup s)
      (fun _ s => s.Holds (rows ++ [row]) ∧ s₀.SameSetup s)
      (fun e s => F e ∧ s.Holds rows ∧ s₀.SameSetup s) (append row) := by
  rintro s ⟨hs, hsetup⟩
  have happended := hs.append row
  have hplain := s.isPlain_append row
  unfold Action.outcome at hplain
  cases hresult : append row s with
  | ok u t =>
    rw [hresult] at happended
    exact .ok ⟨happended.1, hsetup.trans happended.2⟩
  | error e t =>
    rw [hresult] at happended hplain
    exact .error ⟨hF e (hplain e rfl), happended.1, hsetup.trans happended.2⟩

end RowStore

namespace Alongside

variable {φ α : Type} {G : φ → Prop}

theorem row (hF : ∀ e, e.isAboutRetraction = false → F e) (index : Nat) :
    Maintains F (Alongside rows s₀ G) (Action.onSecond (RowStore.row index)) := by
  have hread : Meets (fun s => s.Holds rows ∧ s₀.SameSetup s)
      (fun _ s => s.Holds rows ∧ s₀.SameSetup s) _ (RowStore.row index) :=
    (RowStore.meets_row hF index).imp (fun _ hs => hs) (fun _ _ hs => hs.2) fun _ _ hs => hs
  exact Maintains.onSecond (T := G) hread

theorem ofExcept (hF : ∀ e, e.isAboutRetraction = false → F e) {r : Except Error α}
    (hr : Answer.IsPlain r) :
    Meets (Alongside rows s₀ G) (fun a s => r = .ok a ∧ Alongside rows s₀ G s)
      (fun e s => F e ∧ Alongside rows s₀ G s) (Action.ofExcept r) :=
  .ofExcept (fun _ _ hok hs => ⟨hok, hs⟩) fun e _ herror hs => ⟨hF e (hr e herror), hs⟩

theorem onFirst {A : α → Prop} {x : Action φ α}
    (hx : Meets G (fun a f => A a ∧ G f) (fun e f => F e ∧ G f) x) :
    Meets (Alongside rows s₀ G) (fun a s => A a ∧ Alongside rows s₀ G s)
      (fun e s => F e ∧ Alongside rows s₀ G s) (Action.onFirst x) :=
  Meets.onFirst (T := fun s : RowStore => s.Holds rows ∧ s₀.SameSetup s) hx

/-- A step of the tally that a state has. -/
theorem onTally {η : Type} {P : η → Prop} {part : φ → η} {withPart : φ → η → φ} {x : Action η Unit}
    (hx : Maintains F P x) (hpart : ∀ f, G f → P (part f))
    (hwith : ∀ f t, G f → P t → G (withPart f t)) :
    Maintains F (Alongside rows s₀ G) (Action.onFirst (Action.onPart part withPart x)) := by
  have hpart : Maintains F G (Action.onPart part withPart x) :=
    hx.onPart hpart (fun f _ t hf ht => hwith f t hf ht) fun f _ t hf ht =>
      ⟨ht.1, hwith f t hf ht.2⟩
  exact hpart.onFirst (T := fun s : RowStore => s.Holds rows ∧ s₀.SameSetup s)

end Alongside

/-! ## Frames of each kind -/

variable {η : Type} [Tally η] {P P₀ : η → Prop} {canRemove : Prop} {A : Row → Prop}

theorem WholePartition.meets_prepare (hF : ∀ e, e.isAboutRetraction = false → F e)
    (hP : Tally.Obeys canRemove P F)
    (hstart : ∀ t, P₀ t → P (Tally.setWindowSize rows.length (Tally.clear t)))
    (hP₀ : ∀ t, P t → P₀ t) (hA : ∀ t, P t → A (Tally.values t)) :
    Meets (Alongside rows s₀ fun f : WholePartition η => P₀ f.tally)
      (fun _ => Alongside rows s₀ fun f => P f.tally ∧ A f.values)
      (fun e s => F e ∧ Alongside rows s₀ (fun f => P₀ f.tally) s) prepare := by
  have htakeRow (index : Nat) : Meets (Alongside rows s₀ fun f : WholePartition η => P f.tally)
      (fun _ => Alongside rows s₀ fun f => P f.tally)
      (fun e s => F e ∧ Alongside rows s₀ (fun f => P₀ f.tally) s) (takeRow index) := by
    refine .imp (.bind (Alongside.row hF index) fun row =>
      Alongside.onTally (hP.add row) (fun _ hf => hf) fun _ _ _ ht => ht) (fun _ hs => hs)
      (fun _ _ hs => hs) fun _ _ hs => ⟨hs.1, hP₀ _ hs.2.1, hs.2.2⟩
  refine .get fun s hs => ?_
  rw [hs.2.1.length_eq]
  exact .bind (.modify fun _ hs => ⟨hstart _ hs.1, hs.2⟩) fun _ =>
    .bind (.forM fun index _ => htakeRow index) fun _ =>
      .modify fun _ hs => ⟨⟨hs.1, hA _ hs.1⟩, hs.2⟩

theorem Forward.meets_process (hP : Tally.Obeys canRemove P F) (only : Bool) (row : Row) :
    Meets (fun f : Forward η => P f.tally ∧ f.currentRowOnly = only)
      (fun v f => Tally.Shows P v ∧ P f.tally ∧ f.currentRowOnly = only)
      (fun e f => F e ∧ P f.tally ∧ f.currentRowOnly = only) (process row) := by
  refine .bind (.modify (Q := fun _ f => P f.tally ∧ f.currentRowOnly = only) fun f hf => ?_)
    fun _ => .bind ((hP.add row).onPart (Q := fun _ f => P f.tally ∧ f.currentRowOnly = only)
      (fun _ hf => hf.1) (fun _ _ _ hf ht => ⟨ht, hf.2⟩) fun _ _ _ hf ht => ⟨ht.1, ht.2, hf.2⟩)
      fun _ => .get fun f hf => .pure fun _ hg => ⟨⟨f.tally, hf.1, rfl⟩, hg⟩
  split
  · exact ⟨hP.clear _ hf.1, hf.2⟩
  · exact hf

namespace Held

variable {h : Held η}

theorem meets_dropRows (hF : ∀ e, e.isAboutRetraction = false → F e)
    (hP : Tally.Obeys canRemove P F) {count : Nat} (hcan : count = 0 ∨ canRemove) :
    Maintains F (Alongside rows s₀ fun h : Held η => P h.tally) (dropRows count) := by
  induction count with
  | zero => exact .pure fun _ hs => hs
  | succ count ih =>
    have hcan : canRemove := hcan.resolve_left (Nat.succ_ne_zero count)
    exact .bind (.get fun _ _ => .bind (Alongside.row hF _) fun row =>
      .bind (Alongside.onTally (hP.remove hcan row) (fun _ hh => hh) fun _ _ _ ht => ht) fun _ =>
        .modify fun _ hs => hs) fun _ => ih (.inr hcan)

theorem meets_takeRows (hF : ∀ e, e.isAboutRetraction = false → F e)
    (hP : Tally.Obeys canRemove P F) (count : Nat) :
    Maintains F (Alongside rows s₀ fun h : Held η => P h.tally) (takeRows count) := by
  induction count with
  | zero => exact .pure fun _ hs => hs
  | succ count ih =>
    exact .bind (.get fun _ _ => .bind (Alongside.row hF _) fun row =>
      .bind (Alongside.onTally (hP.add row) (fun _ hh => hh) fun _ _ _ ht => ht) fun _ =>
        .modify fun _ hs => hs) fun _ => ih

/-- A slide to the start of the partition takes no row back. -/
theorem meets_slide (hF : ∀ e, e.isAboutRetraction = false → F e) (hP : Tally.Obeys canRemove P F)
    {lo : Nat} (hcan : lo = 0 ∨ canRemove) (hi : Nat) :
    Maintains F (Alongside rows s₀ fun h : Held η => P h.tally) (slide lo hi) := by
  have hrestart {h : Held η} (hh : P h.tally) : P (h.restart lo).tally := by
    show P (if h.start < h.stop then Tally.clear h.tally else h.tally)
    split
    · exact hP.clear _ hh
    · exact hh
  refine .get fun s _ => ?_
  dsimp only
  split
  · exact .bind (.modify (Q := fun _ => Alongside rows s₀ fun h : Held η => P h.tally)
      fun _ ht => ⟨hrestart ht.1, ht.2⟩) fun _ => .get fun _ _ => meets_takeRows hF hP _
  · refine .bind (meets_dropRows hF hP ?_) fun _ => .get fun _ _ => meets_takeRows hF hP _
    exact hcan.imp_left fun hlo => by omega

end Held

namespace RowDistance

variable {lower upper : Option Int64}

/-- The frame is the one between these distances, and its tally has the property. -/
def Kept (P : η → Prop) (lower upper : Option Int64) (f : RowDistance η) : Prop :=
  P f.held.tally ∧ f.lower = lower ∧ f.upper = upper

theorem meets_process (hF : ∀ e, e.isAboutRetraction = false → F e) (hP : Tally.Obeys canRemove P F)
    (hcan : lower ≠ none → canRemove) (index : Nat) :
    Meets (Alongside rows s₀ (Kept P lower upper))
      (fun v s => Tally.Shows P v ∧ Alongside rows s₀ (Kept P lower upper) s)
      (fun e s => F e ∧ Alongside rows s₀ (Kept P lower upper) s) (process index) := by
  refine .get fun s hs => ?_
  have hlo : (s.1.window index).1 = 0 ∨ canRemove := by
    cases hlower : lower with
    | none =>
      refine .inl ?_
      simp only [window, hs.1.2.1.trans hlower]
    | some k => exact .inr (hcan (by rw [hlower]; nofun))
  refine .bind (R := fun _ => Alongside rows s₀ (Kept P lower upper)) ?_ fun _ =>
    .get fun s hs => .pure fun _ ht => ⟨⟨_, hs.1.1, rfl⟩, ht⟩
  exact (Held.meets_slide hF hP hlo _).onPart (fun _ hs => ⟨hs.1.1, hs.2⟩)
    (fun _ _ _ hs hh => ⟨⟨hh.1, hs.1.2⟩, hh.2⟩)
    fun _ _ _ hs hh => ⟨hh.1, ⟨hh.2.1, hs.1.2⟩, hh.2.2⟩

end RowDistance

namespace KeyDistance

variable {lower upper : Edge}

/-- The frame is the one between these edges, and its tally has the property. -/
def Kept (P : η → Prop) (lower upper : Edge) (f : KeyDistance η) : Prop :=
  P f.held.tally ∧ f.lower = lower ∧ f.upper = upper

/-- As long as no row can go out, the lower edge is at the start of the partition. -/
def Stays (canRemove : Prop) (P : η → Prop) (lower upper : Edge) (f : KeyDistance η) : Prop :=
  Kept P lower upper f ∧ (f.lo = 0 ∨ canRemove)

omit [Tally η] in
theorem meets_seekLower (hF : ∀ e, e.isAboutRetraction = false → F e)
    (hcan : lower.place ≠ .unbounded → canRemove) (current : Row) (steps : Nat) :
    Maintains F (Alongside rows s₀ (Stays canRemove P lower upper)) (seekLower current steps) := by
  induction steps with
  | zero => exact .pure fun _ hs => hs
  | succ steps ih =>
    refine .get fun s hs => .bind (Alongside.row hF _) fun candidate =>
      .bind (Alongside.ofExcept hF (Edge.isPlain_admits current candidate s.1.lower))
        fun admitted => ?_
    cases admitted with
    | true => exact .pure fun _ ht => ht.2
    | false =>
      -- an edge that some row is not admitted by lies somewhere
      refine .bind (.modify fun t ht => ⟨⟨ht.2.1.1, .inr (hcan fun hplace => ?_)⟩, ht.2.2⟩)
        fun _ => ih
      have hadmits := ht.1
      rw [hs.1.1.2.1, Edge.admits_of_place_eq _ _ hplace] at hadmits
      cases hadmits

omit [Tally η] in
theorem meets_seekUpper (hF : ∀ e, e.isAboutRetraction = false → F e) (current : Row)
    (steps : Nat) :
    Maintains F (Alongside rows s₀ (Stays canRemove P lower upper)) (seekUpper current steps) := by
  induction steps with
  | zero => exact .pure fun _ hs => hs
  | succ steps ih =>
    refine .get fun s _ => .bind (Alongside.row hF _) fun candidate =>
      .bind (Alongside.ofExcept hF (Edge.isPlain_admits current candidate s.1.upper))
        fun admitted => ?_
    cases admitted with
    | true => exact .bind (.modify fun _ ht => ht.2) fun _ => ih
    | false => exact .pure fun _ ht => ht.2

theorem meets_process (hF : ∀ e, e.isAboutRetraction = false → F e) (hP : Tally.Obeys canRemove P F)
    (hcan : lower.place ≠ .unbounded → canRemove) (current : Row) :
    Meets (Alongside rows s₀ (Stays canRemove P lower upper))
      (fun v s => Tally.Shows P v ∧ Alongside rows s₀ (Stays canRemove P lower upper) s)
      (fun e s => F e ∧ Alongside rows s₀ (Stays canRemove P lower upper) s) (process current) := by
  refine .get fun _ _ => .bind (meets_seekLower hF hcan current _) fun _ =>
    .bind (meets_seekUpper hF current _) fun _ => .get fun s hs => ?_
  refine .bind (R := fun _ => Alongside rows s₀ (Stays canRemove P lower upper)) ?_ fun _ =>
    .get fun s hs => .pure fun _ ht => ⟨⟨_, hs.1.1.1, rfl⟩, ht⟩
  exact (Held.meets_slide hF hP hs.1.2 _).onPart (fun _ hs => ⟨hs.1.1.1, hs.2⟩)
    (fun _ _ _ hs hh => ⟨⟨⟨hh.1, hs.1.1.2⟩, hs.1.2⟩, hh.2⟩)
    fun _ _ _ hs hh => ⟨hh.1, ⟨⟨hh.2.1, hs.1.1.2⟩, hs.1.2⟩, hh.2.2⟩

end KeyDistance

end

namespace OtherRow

variable {σ : Type} {rows : List Row} {s₀ : RowStore} {F : Error → Prop} {P : CallTally σ → Prop}
  {canRemove : Prop} {direction : Direction} {offset : Operand}

/-- The frame is the one of this lookup, and its tally has the property. -/
def Kept (P : CallTally σ → Prop) (direction : Direction) (offset : Operand) (f : OtherRow σ) :
    Prop :=
  P f.tally ∧ f.direction = direction ∧ f.offset = offset

theorem meets_process (hF : ∀ e, e.isAboutRetraction = false → F e) (hP : Tally.Obeys canRemove P F)
    (hcan : canRemove) (index : Nat) (current : Row) :
    Meets (Alongside rows s₀ (Kept P direction offset))
      (fun v s => Tally.Shows P v ∧ Alongside rows s₀ (Kept P direction offset) s)
      (fun e s => F e ∧ Alongside rows s₀ (Kept P direction offset) s) (process index current) := by
  have honTally {x : Action (CallTally σ) Unit}
      (hx : Maintains F P x) :
      Maintains F (Alongside rows s₀ (Kept P direction offset)) (onTally x) :=
    Alongside.onTally hx (fun _ hf => hf.1) fun _ _ hf ht => ⟨ht, hf.2⟩
  have hshows : Meets (Alongside rows s₀ (Kept P direction offset))
      (fun v s => Tally.Shows P v ∧ Alongside rows s₀ (Kept P direction offset) s)
      (fun e s => F e ∧ Alongside rows s₀ (Kept P direction offset) s)
      (do return Tally.values (← get).1.tally) :=
    .get fun s hs => .pure fun _ ht => ⟨⟨s.1.tally, hs.1.1, rfl⟩, ht⟩
  refine .get fun s _ => .bind (Alongside.ofExcept hF (OtherRow.isPlain_target? current s.1 index))
    fun target => .imp ?_ (fun _ ht => ht.2) (fun _ _ ht => ht) fun _ _ ht => ht
  cases target with
  | some target =>
    exact .bind (Alongside.row hF target) fun row => .bind (honTally (hP.add row)) fun _ => hshows
  | none => exact .bind (honTally (hP.remove hcan current)) fun _ => hshows

end OtherRow

/-! ## Frames -/

namespace Frame

variable {σ : Type} {f₀ : Frame σ} {s₀ : RowStore}

/-- The tally of a frame. -/
def tally : Frame σ → CallTally σ
  | whole f => f.tally
  | forward f => f.tally
  | rowDistance f => f.held.tally
  | keyDistance f => f.held.tally
  | otherRow f => f.tally

/-- The frame is of the kind of `f₀`, between the same bounds, and its tally has the property. -/
inductive Carries (P : CallTally σ → Prop) : Frame σ → Frame σ → Prop where
  | whole {f₀ f : WholePartition (CallTally σ)} (h : P f.tally) : Carries P (whole f₀) (whole f)
  | forward {f₀ f : Forward (CallTally σ)}
      (h : P f.tally ∧ f.currentRowOnly = f₀.currentRowOnly) : Carries P (forward f₀) (forward f)
  | rowDistance {f₀ f : RowDistance (CallTally σ)}
      (h : RowDistance.Kept P f₀.lower f₀.upper f) : Carries P (rowDistance f₀) (rowDistance f)
  | keyDistance {f₀ f : KeyDistance (CallTally σ)}
      (h : KeyDistance.Kept P f₀.lower f₀.upper f) : Carries P (keyDistance f₀) (keyDistance f)
  | otherRow {f₀ f : OtherRow σ} (h : OtherRow.Kept P f₀.direction f₀.offset f) :
      Carries P (otherRow f₀) (otherRow f)

/-- The frame looks up other rows, and is never told how many rows there are. -/
def isOtherRow : Frame σ → Bool
  | otherRow _ => true
  | _ => false

/-- The frame takes rows back. For a lookup these are the rows whose default is asked for. -/
def Removes : Frame σ → Prop
  | whole _ | forward _ => False
  | rowDistance f => f.lower ≠ none
  | keyDistance f => f.lower.place ≠ .unbounded
  | otherRow _ => True

/-- What a frame that is prepared is known to have besides its tally: values for the whole
partition, or a lower edge that stays at its start. -/
def IsPrepared (canRemove : Prop) (A : Row → Prop) : Frame σ → Prop
  | whole f => A f.values
  | keyDistance f => f.lo = 0 ∨ canRemove
  | _ => True

theorem Carries.imp {P Q : CallTally σ → Prop} {f : Frame σ} (h : Carries P f₀ f)
    (hPQ : ∀ t, P t → Q t) : Carries Q f₀ f := by
  cases h with
  | whole h => exact .whole (hPQ _ h)
  | forward h => exact .forward ⟨hPQ _ h.1, h.2⟩
  | rowDistance h => exact .rowDistance ⟨hPQ _ h.1, h.2⟩
  | keyDistance h => exact .keyDistance ⟨hPQ _ h.1, h.2⟩
  | otherRow h => exact .otherRow ⟨hPQ _ h.1, h.2⟩

theorem carries_self {P : CallTally σ → Prop} {f : Frame σ} (h : P f.tally) : Carries P f f := by
  cases f with
  | whole f => exact .whole h
  | forward f => exact .forward ⟨h, rfl⟩
  | rowDistance f => exact .rowDistance ⟨h, rfl, rfl⟩
  | keyDistance f => exact .keyDistance ⟨h, rfl, rfl⟩
  | otherRow f => exact .otherRow ⟨h, rfl, rfl⟩

theorem Carries.tally {P : CallTally σ → Prop} {f : Frame σ} (h : Carries P f₀ f) : P f.tally := by
  cases h with
  | whole h => exact h
  | _ h => exact h.1

section

variable {rows : List Row} {F : Error → Prop} {P P₀ : CallTally σ → Prop} {canRemove : Prop}
  {A : Row → Prop}

theorem meets_within {φ α : Type} {f : φ} {wrap : φ → Frame σ} {x : Action (φ × RowStore) α}
    {B : α → Prop} {G J K : φ → Prop} {H H' : Frame σ → Prop} {P' : Frame σ × RowStore → Prop}
    (hx : Meets (Alongside rows s₀ G) (fun a s => B a ∧ Alongside rows s₀ J s)
      (fun e s => F e ∧ Alongside rows s₀ K s) x)
    (hstart : ∀ s, P' s → Alongside rows s₀ G (f, s.2)) (hok : ∀ g, J g → H (wrap g))
    (herror : ∀ g, K g → H' (wrap g)) :
    Meets P' (fun a s => B a ∧ Alongside rows s₀ H s) (fun e s => F e ∧ Alongside rows s₀ H' s)
      (within f wrap x) :=
  hx.onPart hstart (fun _ _ _ _ ht => ⟨ht.1, hok _ ht.2.1, ht.2.2⟩)
    fun _ _ _ _ ht => ⟨ht.1, herror _ ht.2.1, ht.2.2⟩

/-- **A frame is prepared.** Its tally starts anew; it is told the number of rows unless the frame
looks up other rows. -/
theorem meets_prepare (hF : ∀ e, e.isAboutRetraction = false → F e) (hP : Tally.Obeys canRemove P F)
    (hstart : ∀ t, P₀ t → P (if f₀.isOtherRow then Tally.clear t
      else Tally.setWindowSize rows.length (Tally.clear t)))
    (hP₀ : ∀ t, P t → P₀ t) (hA : ∀ t, P t → A (Tally.values t)) :
    Meets (Alongside rows s₀ (Carries P₀ f₀))
      (fun _ => Alongside rows s₀ fun f => Carries P f₀ f ∧ f.IsPrepared canRemove A)
      (fun e s => F e ∧ Alongside rows s₀ (Carries P₀ f₀) s) prepare := by
  refine .get fun s hs => ?_
  obtain ⟨f, store⟩ := s
  obtain ⟨hf, hstore, hsetup⟩ := hs
  have hlength : rows.length = store.length := hstore.length_eq.symm
  cases hf with
  | whole h =>
    exact (meets_within (B := fun _ => True) ((WholePartition.meets_prepare hF hP hstart hP₀ hA).imp
      (fun _ hs => hs) (fun _ _ hs => ⟨trivial, hs⟩) fun _ _ hs => hs) (fun _ hs => ⟨h, hs.2⟩)
      (fun g hg => ⟨.whole hg.1, hg.2⟩) fun g hg => .whole hg).imp (fun _ hs => hs)
      (fun _ _ hs => hs.2) fun _ _ hs => hs
  | forward h =>
    exact .set ⟨⟨.forward ⟨hlength ▸ hstart _ h.1, h.2⟩, trivial⟩, hstore, hsetup⟩
  | rowDistance h =>
    exact .set ⟨⟨.rowDistance ⟨hlength ▸ hstart _ h.1, h.2⟩, trivial⟩, hstore, hsetup⟩
  | keyDistance h =>
    exact .set ⟨⟨.keyDistance ⟨hlength ▸ hstart _ h.1, h.2⟩, .inl rfl⟩, hstore, hsetup⟩
  | otherRow h => exact .set ⟨⟨.otherRow ⟨hstart _ h.1, h.2⟩, trivial⟩, hstore, hsetup⟩

/-- **A frame answers a row**, with the values of a tally that has the property. -/
theorem meets_process (hF : ∀ e, e.isAboutRetraction = false → F e) (hP : Tally.Obeys canRemove P F)
    (hcan : f₀.Removes → canRemove) (hA : ∀ t, P t → A (Tally.values t)) (index : Nat)
    (current : Row) :
    Meets (Alongside rows s₀ fun f => Carries P f₀ f ∧ f.IsPrepared canRemove A)
      (fun v s => A v ∧ Alongside rows s₀ (fun f => Carries P f₀ f ∧ f.IsPrepared canRemove A) s)
      (fun e s => F e ∧ Alongside rows s₀ (fun f => Carries P f₀ f ∧ f.IsPrepared canRemove A) s)
      (process index current) := by
  have hshown {v : Row} {Q : Prop} (h : Tally.Shows P v ∧ Q) : A v ∧ Q := by
    obtain ⟨⟨t, ht, rfl⟩, hQ⟩ := h
    exact ⟨hA t ht, hQ⟩
  refine .get fun s hs => ?_
  obtain ⟨f, store⟩ := s
  obtain ⟨⟨hf, hprepared⟩, -, -⟩ := hs
  cases hf with
  | whole h => exact .pure fun _ ht => ⟨hprepared, ht⟩
  | @forward f₀ f h =>
    exact (meets_within (Alongside.onFirst (Forward.meets_process hP f₀.currentRowOnly current))
      (fun _ hs => ⟨h, hs.2⟩) (fun g hg => ⟨.forward hg, trivial⟩)
      fun g hg => ⟨.forward hg, trivial⟩).imp (fun _ hs => hs) (fun _ _ hs => hshown hs)
      fun _ _ hs => hs
  | rowDistance h =>
    exact (meets_within (RowDistance.meets_process hF hP hcan index) (fun _ hs => ⟨h, hs.2⟩)
      (fun g hg => ⟨.rowDistance hg, trivial⟩) fun g hg => ⟨.rowDistance hg, trivial⟩).imp
      (fun _ hs => hs) (fun _ _ hs => hshown hs) fun _ _ hs => hs
  | keyDistance h =>
    exact (meets_within (KeyDistance.meets_process hF hP hcan current)
      (fun _ hs => ⟨⟨h, hprepared⟩, hs.2⟩)
      (fun g hg => ⟨.keyDistance hg.1, hg.2⟩) fun g hg => ⟨.keyDistance hg.1, hg.2⟩).imp
      (fun _ hs => hs) (fun _ _ hs => hshown hs) fun _ _ hs => hs
  | otherRow h =>
    exact (meets_within (OtherRow.meets_process hF hP (hcan trivial) index current)
      (fun _ hs => ⟨h, hs.2⟩) (fun g hg => ⟨.otherRow hg, trivial⟩)
      fun g hg => ⟨.otherRow hg, trivial⟩).imp (fun _ hs => hs) (fun _ _ hs => hshown hs)
      fun _ _ hs => hs

end

end Frame

end SqlWindow
