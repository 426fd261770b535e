import SqlWindow.Proofs.Frame.Obeys
import SqlWindow.Proofs.Function.Driven

set_option autoImplicit false

/-! # How frames drive their functions

Whatever frames do with a tally, each of its functions is driven from the one it was built with:
`CallTally.Driven` is obeyed. What is known of the number of rows that a function was told last is a
parameter, so that one property serves before a frame is prepared and behind it.
-/

namespace SqlWindow

open SqlWindow.Action (Maintains Meets)

variable {σ : Type} {mayRetract : Slot σ → Prop} {Suits : Slot σ → Option Nat → Prop}
  {F : Error → Prop}

/-! ## Slots -/

namespace Slot

variable {s₀ : Slot σ}

/-- The function is the one of the slot, driven from there. What it was told last suits the slot,
and values were taken back only if that was allowed. -/
def Drives (mayRetract : Slot σ → Prop) (Suits : Slot σ → Option Nat → Prop) (s₀ : Slot σ)
    (a : Accumulator σ) : Prop :=
  ∃ told, Suits s₀ told ∧ s₀.accumulator.Driven (mayRetract s₀) told a

theorem Drives.imp {Suits' : Slot σ → Option Nat → Prop} {a : Accumulator σ}
    (h : s₀.Drives mayRetract Suits a) (hSuits : ∀ told, Suits s₀ told → Suits' s₀ told) :
    s₀.Drives mayRetract Suits' a := by
  obtain ⟨told, hsuits, hdriven⟩ := h
  exact ⟨told, hSuits told hsuits, hdriven⟩

theorem meets_add (hF : ∀ e, e.isAboutRetraction = false → F e) (row : Row) :
    Maintains F (fun s : Slot σ => s₀.Drives mayRetract Suits s.accumulator) (add row) := by
  refine .get fun s _ => .bind (.ofExcept (fun _ _ _ hs => hs)
    fun e _ herror hs => ⟨hF e (isPlain_feed row s.value e herror), hs⟩) fun v =>
      .modify fun s hs => ?_
  obtain ⟨told, hsuits, hdriven⟩ := hs
  exact ⟨told, hsuits, hdriven.accumulate v⟩

theorem meets_remove (hF : ∀ e, e.isAboutRetraction = false → F e)
    (hmay : mayRetract s₀)
    (hretract : ∀ a, s₀.Drives mayRetract Suits a → ∀ v e,
      ((Accumulator.retract v).outcome a).1 = .error e → F e) (row : Row) :
    Maintains F (fun s : Slot σ => s₀.Drives mayRetract Suits s.accumulator) (remove row) := by
  have hstep (v : Value) : Maintains F (s₀.Drives mayRetract Suits) (Accumulator.retract v) := by
    intro a ha
    have hbehind : s₀.Drives mayRetract Suits ((Accumulator.retract v).outcome a).2 := by
      obtain ⟨told, hsuits, hdriven⟩ := ha
      exact ⟨told, hsuits, hdriven.retract v hmay⟩
    have herror := hretract a ha v
    simp only [Action.outcome] at hbehind herror
    cases hv : Accumulator.retract v a with
    | ok u b =>
      rw [hv] at hbehind
      exact .ok hbehind
    | error e b =>
      rw [hv] at hbehind herror
      exact .error ⟨herror e rfl, hbehind⟩
  refine .get fun s _ => .bind (.ofExcept (fun _ _ _ hs => hs)
    fun e _ he hs => ⟨hF e (isPlain_feed row _ e he), hs⟩) fun v => ?_
  exact (hstep v).onPart (fun _ hs => hs) (fun _ _ _ _ ha => ha) fun _ _ _ _ ha => ha

/-! ### Results -/

/-- The row has the results of functions that are driven from those of the slots, one for each. -/
def HasResults (mayRetract : Slot σ → Prop) (Suits : Slot σ → Option Nat → Prop)
    (slots : List (Slot σ)) (v : Row) : Prop :=
  ∃ as, v = as.map Accumulator.result ∧ List.Forall₂ (Drives mayRetract Suits) slots as

/-- The results of several lists of slots, one behind the other. -/
theorem hasResults_flatten {lists : List (List (Slot σ))} {vs : List Row}
    (h : List.Forall₂ (HasResults mayRetract Suits) lists vs) :
    HasResults mayRetract Suits lists.flatten vs.flatten := by
  induction h with
  | nil => exact ⟨[], rfl, .nil⟩
  | cons hv _ ih =>
    obtain ⟨as, rfl, has⟩ := hv
    obtain ⟨bs, hvs, hbs⟩ := ih
    refine ⟨as ++ bs, ?_, List.rel_append has hbs⟩
    rw [List.flatten_cons, hvs, List.map_append]

end Slot

/-! ## Tallies -/

namespace CallTally

variable {canRemove : Prop} {fresh t : CallTally σ}

/-- Each function is the one that `fresh` has at its place, driven from there. -/
def Driven (mayRetract : Slot σ → Prop) (Suits : Slot σ → Option Nat → Prop)
    (fresh t : CallTally σ) : Prop :=
  List.Forall₂ (fun s₀ s => s₀.Drives mayRetract Suits s.accumulator) fresh.slots t.slots

theorem driven_self (hSuits : ∀ s₀ ∈ fresh.slots, Suits s₀ none) :
    fresh.Driven mayRetract Suits fresh :=
  List.forall₂_same.mpr fun s₀ hs₀ => ⟨none, hSuits s₀ hs₀, .start⟩

theorem Driven.imp {Suits' : Slot σ → Option Nat → Prop} (h : fresh.Driven mayRetract Suits t)
    (hSuits : ∀ s₀ ∈ fresh.slots, ∀ told, Suits s₀ told → Suits' s₀ told) :
    fresh.Driven mayRetract Suits' t :=
  List.Forall₂.imp (fun _ _ hs => hs.2.imp hs.1) ((List.forall₂_and_left _ _).mpr ⟨hSuits, h⟩)

/-- The values of a tally are the results of its functions. -/
theorem Driven.hasResults (h : fresh.Driven mayRetract Suits t) :
    Slot.HasResults mayRetract Suits fresh.slots (Tally.values t) := by
  refine ⟨t.slots.map Slot.accumulator, ?_, List.forall₂_map_right_iff.mpr h⟩
  rw [List.map_map]
  rfl

/-- What is done to all functions at once. -/
theorem Driven.map {Suits' : Slot σ → Option Nat → Prop} (h : fresh.Driven mayRetract Suits t)
    {f : Accumulator σ → Accumulator σ} (hf : ∀ s₀ : Slot σ, ∀ a,
      s₀.Drives mayRetract Suits a → s₀.Drives mayRetract Suits' (f a)) :
    fresh.Driven mayRetract Suits' (t.map f) := by
  have hslots : List.Forall₂ (fun s₀ s : Slot σ => s₀.Drives mayRetract Suits' (f s.accumulator))
      fresh.slots t.slots := List.Forall₂.imp (fun s₀ (s : Slot σ) hs => hf s₀ s.accumulator hs) h
  exact List.forall₂_map_right_iff.mpr hslots

theorem Driven.clear (h : fresh.Driven mayRetract Suits t) :
    fresh.Driven mayRetract Suits (Tally.clear t) := by
  refine h.map fun s₀ a ha => ?_
  obtain ⟨told, hsuits, hdriven⟩ := ha
  exact ⟨told, hsuits, hdriven.reset⟩

theorem Driven.setWindowSize {Suits' : Slot σ → Option Nat → Prop}
    (h : fresh.Driven mayRetract Suits t) (size : Nat) (hSuits : ∀ s₀, Suits' s₀ (some size)) :
    fresh.Driven mayRetract Suits' (Tally.setWindowSize size t) := by
  refine h.map fun s₀ a ha => ?_
  obtain ⟨told, -, hdriven⟩ := ha
  exact ⟨some size, hSuits s₀, hdriven.setWindowSize size⟩

theorem meets_onSlots {R : Slot σ → Slot σ → Prop} {slots : List (Slot σ)}
    {x : Action (Slot σ) Unit}
    (hx : ∀ s₀ ∈ slots, Maintains F (R s₀) x) :
    Maintains F (fun t : CallTally σ => List.Forall₂ R slots t.slots) (onSlots x) := by
  have hslot (s₀ : Slot σ) (hs₀ : s₀ ∈ slots) :
      Maintains F (fun s : Slot σ × Unit => R s₀ s.1 ∧ True) (Action.onFirst x) :=
    (hx s₀ hs₀).onFirst (T := fun _ => True)
  have hslots := Maintains.onEach (T := fun _ => True) hslot
  exact .discard (hslots.onPart (fun _ ht => ⟨ht, trivial⟩) (fun _ _ _ _ hs => hs.1)
    fun _ _ _ _ hs => ⟨hs.1, hs.2.1⟩)

/-- **Functions are driven** by all that a tally does. Rows go out only where every function of the
tally allows it, and the errors of taking values back are among `F`. -/
theorem obeys_driven (hF : ∀ e, e.isAboutRetraction = false → F e)
    (hremove : canRemove → ∀ s₀ ∈ fresh.slots, mayRetract s₀ ∧
      ∀ a, s₀.Drives mayRetract Suits a → ∀ v e,
        ((Accumulator.retract v).outcome a).1 = .error e → F e) :
    Tally.Obeys canRemove (fresh.Driven mayRetract Suits) F where
  add row := meets_onSlots fun _ _ => Slot.meets_add hF row
  remove hcan row := meets_onSlots fun s₀ hs₀ =>
    Slot.meets_remove hF (hremove hcan s₀ hs₀).1 (hremove hcan s₀ hs₀).2 row
  clear _ ht := ht.clear

end CallTally

/-! ## Frames -/

/-- A call that is not a lookup was told this number of rows. -/
def Slot.IsTold (size : Nat) (s₀ : Slot σ) (told : Option Nat) : Prop :=
  s₀.fallback = none → told = some size

namespace Frame

variable {f₀ : Frame σ} {rows : List Row} {store : RowStore}

/-- The frame has functions to drive: where it looks up other rows all calls are lookups, and what
tallies do to its functions they obey. -/
structure IsDrivable (mayRetract : Slot σ → Prop) (F : Error → Prop) (f₀ : Frame σ) :
    Prop where
  fallback : f₀.isOtherRow = true → ∀ s ∈ f₀.tally.slots, s.fallback ≠ none
  obeys : ∀ Suits, Tally.Obeys f₀.Removes (f₀.tally.Driven mayRetract Suits) F

/-- The functions of the frame are driven from those of `f₀`. -/
def IsDriven (mayRetract : Slot σ → Prop) (f₀ : Frame σ) : Frame σ → Prop :=
  Carries (f₀.tally.Driven mayRetract fun _ _ => True) f₀

/-- The functions of the frame are driven from those of `f₀`, and it is prepared for a partition of
so many rows. -/
def IsDrivenOver (mayRetract : Slot σ → Prop) (size : Nat) (f₀ f : Frame σ) : Prop :=
  Carries (f₀.tally.Driven mayRetract (Slot.IsTold size)) f₀ f ∧
    f.IsPrepared f₀.Removes (Slot.HasResults mayRetract (Slot.IsTold size) f₀.tally.slots)

theorem IsDrivenOver.isDriven {size : Nat} {f : Frame σ} (h : f₀.IsDrivenOver mayRetract size f) :
    f₀.IsDriven mayRetract f :=
  h.1.imp fun _ ht => ht.imp fun _ _ _ _ => trivial

/-- **Preparing a frame** tells its functions the number of rows, lookups apart. -/
theorem IsDrivable.meets_prepare (hF : ∀ e, e.isAboutRetraction = false → F e)
    (h : f₀.IsDrivable mayRetract F) :
    Meets (Alongside rows store (f₀.IsDriven mayRetract))
      (fun _ => Alongside rows store (f₀.IsDrivenOver mayRetract rows.length))
      (fun e s => F e ∧ Alongside rows store (f₀.IsDriven mayRetract) s) prepare := by
  refine Frame.meets_prepare hF (h.obeys _) (fun t ht => ?_)
    (fun t ht => ht.imp fun _ _ _ _ => trivial) fun t ht => ht.hasResults
  split
  · rename_i hother
    exact ht.clear.imp fun s₀ hs₀ _ _ hnone => absurd hnone (h.fallback hother s₀ hs₀)
  · exact ht.clear.setWindowSize rows.length fun _ _ => rfl

/-- **Answering a row** gives the results of functions that were told the number of rows, lookups
apart. -/
theorem IsDrivable.meets_process (hF : ∀ e, e.isAboutRetraction = false → F e)
    (h : f₀.IsDrivable mayRetract F) (index : Nat) (current : Row) :
    Meets (Alongside rows store (f₀.IsDrivenOver mayRetract rows.length))
      (fun v s => Slot.HasResults mayRetract (Slot.IsTold rows.length) f₀.tally.slots v ∧
        Alongside rows store (f₀.IsDrivenOver mayRetract rows.length) s)
      (fun e s => F e ∧ Alongside rows store (f₀.IsDrivenOver mayRetract rows.length) s)
      (process index current) :=
  Frame.meets_process hF (h.obeys _) id (fun _ ht => ht.hasResults) index current

end Frame

end SqlWindow
