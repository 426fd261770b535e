import SqlWindow.Operator.Basic
import SqlWindow.Proofs.Operator.Output

set_option autoImplicit false

/-! # What an operator takes from a registry

Of a registry nothing counts but the functions that the calls of a specification name: with two
registries that find the same functions for them, a specification is checked alike and the same
operator is built.

A registry of built-in functions finds what the registry of all of them finds, where it finds
anything. So what is accepted with it may as well be evaluated with all built-in functions.
-/

namespace SqlWindow

variable {σ : Type} {r r' : Registry σ}

/-! ## Registries of built-in functions -/

namespace Registry

/-- All functions are built-in ones, as they are before any row, under their names. -/
def IsStandard (r : Registry σ) : Prop :=
  ∀ p ∈ r.entries, p.2 ∈ Accumulator.builtins ∧ p.1 = p.2.name

theorem isStandard_builtin : (builtin : Registry σ).IsStandard := by
  intro p hp
  rcases mem_foldl_insert hp with hp | ⟨hmem, hname⟩
  · cases hp
  · exact ⟨hmem, hname.trans (uppercase_name_of_mem_builtins hmem)⟩

/-- What a registry of built-in functions finds, the registry of all of them finds. -/
theorem IsStandard.find?_builtin (hr : r.IsStandard) {name : String} {a : Accumulator σ}
    (h : r.find? name = some a) : (builtin : Registry σ).find? name = some a := by
  have hentry {key : String} (hmem : (key, a) ∈ r.entries) :
      a ∈ Accumulator.builtins ∧ key = a.name := hr (key, a) hmem
  rw [find?, Option.or_eq_some_iff]
  rcases mem_of_find? h with hmem | hmem
  · obtain ⟨ha, rfl⟩ := hentry hmem
    exact .inl (lookup_builtin_of_mem ha)
  · obtain ⟨ha, hname⟩ := hentry hmem
    have hupper : (builtin : Registry σ).entries.lookup (uppercase name) = some a := by
      rw [hname, lookup_builtin_of_mem ha]
    cases hwritten : (builtin : Registry σ).entries.lookup name with
    | none => exact .inr ⟨rfl, hupper⟩
    | some b =>
      -- the names of functions are in upper case, so this is the one found there
      obtain ⟨front, back, hentries, -⟩ := List.lookup_eq_some_iff.mp hwritten
      obtain ⟨hb, hbname⟩ := isStandard_builtin (name, b) (by rw [hentries]; simp)
      have hsame : uppercase name = name := by
        rw [show name = b.name from hbname, uppercase_name_of_mem_builtins hb]
      rw [hsame, hwritten] at hupper
      exact .inl hupper

end Registry

/-! ## Calls -/

namespace Call

variable {c : Call}

theorem create_congr (h : r.find? c.name = r'.find? c.name) :
    r.create c.name = r'.create c.name := by
  unfold Registry.create
  rw [h]

theorem check_congr (h : r.find? c.name = r'.find? c.name) (types : List DataType) :
    c.check types r = c.check types r' := by
  unfold check
  rw [create_congr h]

theorem needsWindowSize_congr (h : r.find? c.name = r'.find? c.name) :
    c.needsWindowSize r = c.needsWindowSize r' := by
  unfold needsWindowSize
  rw [h]

theorem slot_congr (h : r.find? c.name = r'.find? c.name) :
    Slot.ofCall r c = Slot.ofCall r' c := by
  unfold Slot.ofCall
  rw [create_congr h]

end Call

/-! ## Groups -/

namespace WindowGroup

/-- The registries find the same functions for the calls of the group. -/
def FindsAlike (g : WindowGroup) (r r' : Registry σ) : Prop :=
  ∀ c ∈ g.calls, r.find? c.name = r'.find? c.name

variable {g : WindowGroup}

theorem FindsAlike.ofCalls (h : g.FindsAlike r r') :
    CallTally.ofCalls g.calls r = CallTally.ofCalls g.calls r' := by
  unfold CallTally.ofCalls
  rw [Answer.mapM_congr fun c hc => Call.slot_congr (h c hc)]

theorem FindsAlike.check (h : g.FindsAlike r r') (position : Nat) (types : List DataType) :
    g.check position types r = g.check position types r' := by
  have hlookups : g.checkLookups types r = g.checkLookups types r' := by
    refine Answer.forM_congr ?_
    intro c hc
    rw [Call.check_congr (h c hc) types]
  have hframed : g.checkFramed types r = g.checkFramed types r' := by
    have hcalls (shape : FrameShape) :
        g.calls.forM (g.checkCall types r shape) = g.calls.forM (g.checkCall types r' shape) := by
      refine Answer.forM_congr ?_
      intro c hc
      unfold checkCall
      rw [Call.check_congr (h c hc) types]
    rw [checkFramed_eq, checkFramed_eq]
    simp only [hcalls]
  unfold WindowGroup.check
  rw [hlookups, hframed]

theorem FindsAlike.needsBuffering (h : g.FindsAlike r r') :
    g.needsBuffering r = g.needsBuffering r' := by
  have hcalls : g.calls.any (·.needsWindowSize r) = g.calls.any (·.needsWindowSize r') := by
    rw [Bool.eq_iff_iff, List.any_eq_true, List.any_eq_true]
    refine exists_congr fun c => and_congr_right fun hc => ?_
    rw [Call.needsWindowSize_congr (h c hc)]
  unfold WindowGroup.needsBuffering
  rw [hcalls]

theorem FindsAlike.ofGroup (h : g.FindsAlike r r') : Frame.ofGroup g r = Frame.ofGroup g r' := by
  have hlookup : ∀ c ∈ g.calls, OtherRow.ofCall c r = OtherRow.ofCall c r' := by
    intro c hc
    have htally : CallTally.ofCalls [c] r = CallTally.ofCalls [c] r' := by
      refine FindsAlike.ofCalls (g := { partition := [], calls := [c] }) ?_
      intro d hd
      rw [List.mem_singleton.mp hd]
      exact h c hc
    unfold OtherRow.ofCall
    rw [htally]
  have hlookups : (g.calls.mapM fun c => Frame.otherRow <$> OtherRow.ofCall c r) =
      g.calls.mapM fun c => Frame.otherRow <$> OtherRow.ofCall c r' :=
    Answer.mapM_congr fun c hc => by rw [hlookup c hc]
  unfold Frame.ofGroup
  rw [h.ofCalls, hlookups]

theorem FindsAlike.forwardFrame (h : g.FindsAlike r r') :
    WindowOperator.forwardFrame r g = WindowOperator.forwardFrame r' g := by
  unfold WindowOperator.forwardFrame
  rw [h.ofCalls]

end WindowGroup

/-! ## Specifications -/

namespace WindowSpec

/-- The registries find the same functions for all calls. -/
def FindsAlike (s : WindowSpec) (r r' : Registry σ) : Prop := ∀ g ∈ s.groups, g.FindsAlike r r'

variable {s : WindowSpec}

theorem FindsAlike.check (h : s.FindsAlike r r') (types : List DataType) :
    s.check types r = s.check types r' := by
  unfold WindowSpec.check
  cases hgroups : s.groups with
  | nil => rfl
  | cons first rest =>
    refine Answer.forM_congr ?_
    intro p hp
    obtain ⟨g, position⟩ := p
    have hg : g ∈ s.groups := hgroups ▸ List.fst_mem_of_mem_zipIdx hp
    dsimp only
    rw [(h g hg).check position types]

theorem FindsAlike.ofSpec (h : s.FindsAlike r r') (types : List DataType) (options : Options)
    (canSpill : Bool) :
    WindowOperator.ofSpec s types options canSpill r =
      WindowOperator.ofSpec s types options canSpill r' := by
  have hneeds : s.needsBuffering r = s.needsBuffering r' := by
    unfold WindowSpec.needsBuffering
    rw [Bool.eq_iff_iff, List.any_eq_true, List.any_eq_true]
    refine exists_congr fun g => and_congr_right fun hg => ?_
    rw [(h g hg).needsBuffering]
  unfold WindowOperator.ofSpec
  rw [h.check types, hneeds, Answer.mapM_congr fun g hg => (h g hg).ofGroup,
    Answer.mapM_congr fun g hg => (h g hg).forwardFrame]

/-- Every call of an accepted specification names a function of the registry. -/
theorem exists_find?_of_check {types : List DataType} (h : s.check types r = .ok ())
    {g : WindowGroup} (hg : g ∈ s.groups) {c : Call} (hc : c ∈ g.calls) :
    ∃ a, r.find? c.name = some a := by
  obtain ⟨position, hcheck⟩ := (accepted_of_check h).2 g hg
  obtain ⟨-, hlookups, hframed⟩ := WindowGroup.accepted_of_check hcheck
  have haccepted : ∃ a, c.Accepted types r a := by
    by_cases hmode : g.mode = .offset
    · obtain ⟨a, -, ha, -⟩ := hlookups hmode c hc
      exact ⟨a, ha⟩
    · obtain ⟨shape, hshape⟩ := hframed hmode
      obtain ⟨a, ha, -⟩ := hshape.calls c hc
      exact ⟨a, ha⟩
  obtain ⟨a, ha⟩ := haccepted
  obtain ⟨b, hcreate, -⟩ := Call.configure_of_function ha.function
  exact ⟨b, Registry.find?_of_create hcreate⟩

/-- **All built-in functions.** A specification that is accepted with some of the built-in
functions finds the same ones among all of them. -/
theorem findsAlike_builtin {types : List DataType} (hr : r.IsStandard)
    (h : s.check types r = .ok ()) : s.FindsAlike r Registry.builtin := by
  intro g hg c hc
  obtain ⟨a, ha⟩ := exists_find?_of_check h hg hc
  rw [ha, hr.find?_builtin ha]

end WindowSpec

end SqlWindow
