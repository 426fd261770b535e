import SqlWindow.Frame.Basic
import SqlWindow.Proofs.Function.Builtin
import SqlWindow.Proofs.Spec.Conforming

set_option autoImplicit false

/-! # What an accepted group is known to be

Checking a group answers with nothing; here is what its success says about the calls, the bounds
and the ordering, in the form in which frames rely on it.
-/

namespace SqlWindow

variable {σ : Type} {types : List DataType} {registry : Registry σ}

/-! ## Calls -/

namespace Call

/-- The function of a call, configured with its literal arguments. -/
def function (c : Call) (registry : Registry σ) : Except Error (Accumulator σ) := do
  let a ← registry.create c.name
  let (outcome, a) := (Accumulator.configure c.literals).outcome a
  outcome
  return a

variable {c : Call} {a : Accumulator σ}

theorem configure_of_function (h : c.function registry = .ok a) :
    ∃ b, registry.create c.name = .ok b ∧ Accumulator.configure c.literals b = .ok () a := by
  obtain ⟨b, hb, h⟩ := Answer.ok_of_bind_ok h
  refine ⟨b, hb, ?_⟩
  simp only [Action.outcome] at h
  cases hconfigure : Accumulator.configure c.literals b with
  | ok u d =>
    rw [hconfigure] at h
    cases h
    rfl
  | error e d =>
    rw [hconfigure] at h
    cases h

/-- **Functions of calls are new.** A call of the built-in registry has a built-in function as
new, of the name that the call gives or the upper case of that. -/
theorem isNew_of_function (h : c.function (Registry.builtin : Registry σ) = .ok a) :
    a.IsNew ∧ (a.name = c.name ∨ a.name = uppercase c.name) := by
  obtain ⟨b, hcreate, hconfigure⟩ := configure_of_function h
  obtain ⟨hmem, hname⟩ := Registry.mem_builtins_of_create hcreate
  obtain ⟨hnew, hsame⟩ := (Accumulator.isNew_of_mem_builtins hmem).configure hconfigure
  exact ⟨hnew, by rw [hsame]; exact hname⟩

/-- The call has a function, and all its arguments have types. -/
structure Accepted (c : Call) (types : List DataType) (registry : Registry σ)
    (a : Accumulator σ) : Prop where
  function : c.function registry = .ok a
  arguments : ∀ o ∈ c.arguments, ∃ type, o.type types = .ok type

theorem accepted_of_check (h : c.check types registry = .ok a) : c.Accepted types registry a := by
  obtain ⟨b, hcreate, h⟩ := Answer.ok_of_bind_ok h
  cases hcount : b.info.signature.checkCount c.arguments.length with
  | error e =>
    rw [hcount] at h
    cases h
  | ok u =>
  rw [hcount] at h
  obtain ⟨⟨⟩, harguments, h⟩ := Answer.ok_of_bind_ok h
  refine ⟨?_, fun o ho => ?_⟩
  · rw [function, Answer.bind_of_ok hcreate]
    exact h
  · exact Answer.discard_eq_ok_iff.mp (Answer.forM_eq_ok_iff.mp harguments o ho)

theorem Accepted.slot (h : c.Accepted types registry a) :
    Slot.ofCall registry c = .ok ⟨a, c.value?, c.lookup.map Lookup.default⟩ := by
  obtain ⟨b, hcreate, hconfigure⟩ := configure_of_function h.function
  rw [Slot.ofCall, Answer.bind_of_ok hcreate]
  simp only [Action.outcome, hconfigure]
  rfl

theorem Accepted.value (h : c.Accepted types registry a) {o : Operand} (ho : c.value? = some o) :
    ∃ type, o.type types = .ok type :=
  h.arguments o (List.mem_of_mem_head? ho)

/-- The row that a call looks up: its distance is an integer, its value and its default have
types. -/
structure LooksUp (c : Call) (types : List DataType) (lookup : Lookup) : Prop where
  lookup_eq : c.lookup = some lookup
  offset : (∃ k, lookup.offset = .literal (.integer k)) ∨
    ∃ index, lookup.offset = .field index ∧ types[index]? = some .integer
  value : ∃ o, c.value? = some o
  default : ∃ type, lookup.default.type types = .ok type

/-- The type of the looked up value. -/
def valueType (c : Call) (types : List DataType) : Except Error DataType :=
  match c.value? with
  | some value => value.type types
  | none => throw (.invalidArgument s!"{c.name} needs a value")

/-- Accepts the default of a lookup, of a common type with the value. -/
def checkDefault (c : Call) (types : List DataType) (lookup : Lookup) : Except Error Unit := do
  let valueType ← c.valueType types
  let defaultType ← lookup.default.type types
  if !valueType.hasCommonType defaultType then
    throw (.defaultTypeMismatch valueType defaultType)

/-- The check of a lookup is the one of its distance and the one of its default. -/
theorem checkLookup_eq {lookup : Lookup} (h : c.lookup = some lookup) :
    c.checkLookup types =
      match lookup.offset with
      | .literal (.integer _) => c.checkDefault types lookup
      | .literal v => throw (.invalidFrameOffset v.display s!"{c.name} offset must be an integer")
      | .field index => (do
        let type ← fieldType types index
        if !type.isIntegral then throw (.offsetNotIntegral index type)
        else c.checkDefault types lookup) := by
  unfold checkLookup checkDefault valueType
  simp only [h]
  cases c.value? <;> rcases lookup.offset with index | v <;> rfl

theorem looksUp_of_checkLookup (h : c.checkLookup types = .ok ()) (hlookup : c.isLookup) :
    ∃ lookup, c.LooksUp types lookup := by
  obtain ⟨lookup, heq⟩ := Option.isSome_iff_exists.mp hlookup
  -- The default is checked last, whatever the distance is, and its check needs the value.
  have hdefault (h : c.checkDefault types lookup = .ok ()) :
      (∃ o, c.value? = some o) ∧ ∃ type, lookup.default.type types = .ok type := by
    obtain ⟨type, hvalue, h⟩ := Answer.ok_of_bind_ok h
    obtain ⟨defaultType, htype, -⟩ := Answer.ok_of_bind_ok h
    refine ⟨?_, defaultType, htype⟩
    unfold valueType at hvalue
    split at hvalue
    · rename_i o ho
      exact ⟨o, ho⟩
    · cases hvalue
  rw [checkLookup_eq heq] at h
  split at h
  · rename_i k hk
    exact ⟨lookup, heq, .inl ⟨k, hk⟩, (hdefault h).1, (hdefault h).2⟩
  · cases h
  · rename_i index hindex
    obtain ⟨type, htype, h⟩ := Answer.ok_of_bind_ok h
    cases type <;> try cases h
    exact ⟨lookup, heq, .inr ⟨index, hindex, getElem?_of_fieldType htype⟩, (hdefault h).1,
      (hdefault h).2⟩

end Call

/-! ## Shapes -/

/-- Rows leave a frame unless it starts with the partition or holds the current row alone. -/
theorem FrameShape.cases_of_ofBounds {unit : FrameUnit} {lower upper : FrameBound}
    {shape : FrameShape} (h : ofBounds unit lower upper = .ok shape) :
    shape = .unbounded ∧ lower = .unboundedPreceding ∧ upper = .unboundedFollowing ∨
      shape = .growing ∧ lower = .unboundedPreceding ∨
      shape = .currentRow ∧ lower = .currentRow ∧ upper = .currentRow ∧ unit = .rows ∨
      shape.retracts = true := by
  cases lower <;> cases upper <;> cases unit <;> simp [ofBounds] at h <;> subst h <;>
    simp [retracts]

/-! ## Groups -/

namespace WindowGroup

variable {g : WindowGroup} {position : Nat}

/-- What acceptance says of every group. -/
structure FieldsAccepted (g : WindowGroup) (types : List DataType) : Prop where
  partition : ∀ index ∈ g.partition, ∃ type, fieldType types index = .ok type
  sort : ∀ key ∈ g.sort, ∃ type, fieldType types key.index = .ok type

theorem fieldsAccepted_of_checkFields (h : g.checkFields types = .ok ()) :
    g.FieldsAccepted types := by
  obtain ⟨⟨⟩, hpartition, hsort⟩ := Answer.ok_of_bind_ok h
  refine ⟨fun index hindex => ?_, fun key hkey => ?_⟩
  · exact Answer.discard_eq_ok_iff.mp (Answer.forM_eq_ok_iff.mp hpartition index hindex)
  · obtain ⟨type, htype, -⟩ := Answer.ok_of_bind_ok (Answer.forM_eq_ok_iff.mp hsort key hkey)
    exact ⟨type, htype⟩

/-- Rows leave the frame of a group while it moves on. -/
def Retracts (g : WindowGroup) (shape : FrameShape) : Prop :=
  (g.mode = .row ∨ g.mode = .range) ∧ shape.retracts = true

/-- What acceptance says of a group over a frame. -/
structure FrameAccepted (g : WindowGroup) (types : List DataType) (registry : Registry σ)
    (shape : FrameShape) : Prop where
  shape_eq : FrameShape.ofBounds g.unit g.lower g.upper = .ok shape
  lower : checkBound g.lower = .ok ()
  upper : checkBound g.upper = .ok ()
  rowDistances : g.mode = .row → g.checkRowDistances = .ok ()
  rangeDistances : g.mode = .range → g.checkRangeDistances types = .ok ()
  calls : ∀ c ∈ g.calls, ∃ a, c.Accepted types registry a ∧ c.lookup = none ∧
    (g.Retracts shape → a.supportsRetract = true)

/-- What acceptance says of a group of lookups. -/
def LookupsAccepted (g : WindowGroup) (types : List DataType) (registry : Registry σ) : Prop :=
  ∀ c ∈ g.calls, ∃ a lookup, c.Accepted types registry a ∧ c.LooksUp types lookup

theorem lookupsAccepted_of_checkLookups (h : g.checkLookups types registry = .ok ())
    (hall : g.calls.all Call.isLookup) : g.LookupsAccepted types registry := by
  intro c hc
  obtain ⟨⟨⟩, hcheck, hlookup⟩ := Answer.ok_of_bind_ok (Answer.forM_eq_ok_iff.mp h c hc)
  obtain ⟨a, ha⟩ := Answer.discard_eq_ok_iff.mp hcheck
  obtain ⟨lookup, hlooksUp⟩ := Call.looksUp_of_checkLookup hlookup (List.all_eq_true.mp hall c hc)
  exact ⟨a, lookup, Call.accepted_of_check ha, hlooksUp⟩

/-- Accepts the distances of a frame, as the mode of its group asks for. -/
def checkDistances (g : WindowGroup) (types : List DataType) : Except Error Unit :=
  match g.mode with
  | .row => g.checkRowDistances
  | .range => g.checkRangeDistances types
  | _ => pure ()

/-- Accepts a call over a frame of some shape. -/
def checkCall (g : WindowGroup) (types : List DataType) (registry : Registry σ)
    (shape : FrameShape) (c : Call) : Except Error Unit := do
  let a ← c.check types registry
  if (g.mode == .row || g.mode == .range) && shape.retracts && !a.supportsRetract then
    throw (.retractionNotSupported c.name s!"{g.unit.display} {shape.display}")

theorem checkFramed_eq :
    g.checkFramed types registry = (do
      checkBound g.lower
      checkBound g.upper
      let shape ← FrameShape.ofBounds g.unit g.lower g.upper
      g.checkDistances types
      g.calls.forM (g.checkCall types registry shape)) := by
  unfold checkFramed checkDistances checkCall
  cases g.mode <;> rfl

theorem accepted_of_checkCall {shape : FrameShape} {c : Call}
    (h : g.checkCall types registry shape c = .ok ()) :
    ∃ a, c.Accepted types registry a ∧ (g.Retracts shape → a.supportsRetract = true) := by
  obtain ⟨a, ha, hretract⟩ := Answer.ok_of_bind_ok h
  refine ⟨a, Call.accepted_of_check ha, fun ⟨hmode, hretracts⟩ => ?_⟩
  cases hsupports : a.supportsRetract with
  | true => rfl
  | false =>
    rcases hmode with hmode | hmode <;> simp [hmode, hretracts, hsupports] at hretract

theorem frameAccepted_of_checkFramed (h : g.checkFramed types registry = .ok ())
    (hno : ∀ c ∈ g.calls, c.lookup = none) : ∃ shape, g.FrameAccepted types registry shape := by
  rw [checkFramed_eq] at h
  obtain ⟨⟨⟩, hlower, h⟩ := Answer.ok_of_bind_ok h
  obtain ⟨⟨⟩, hupper, h⟩ := Answer.ok_of_bind_ok h
  obtain ⟨shape, hshape, h⟩ := Answer.ok_of_bind_ok h
  obtain ⟨⟨⟩, hdistances, hcalls⟩ := Answer.ok_of_bind_ok h
  unfold checkDistances at hdistances
  refine ⟨shape, hshape, hlower, hupper, fun hmode => ?_, fun hmode => ?_, fun c hc => ?_⟩
  · rwa [hmode] at hdistances
  · rwa [hmode] at hdistances
  · obtain ⟨a, ha, hretract⟩ := accepted_of_checkCall (Answer.forM_eq_ok_iff.mp hcalls c hc)
    exact ⟨a, ha, hno c hc, hretract⟩

/-- The mode of a group is the one of lookups when it has calls and all are lookups. -/
theorem mode_eq_offset_iff : g.mode = .offset ↔ g.calls ≠ [] ∧ g.calls.all Call.isLookup := by
  unfold mode
  cases hcalls : g.calls with
  | nil =>
    show (if g.sort.isEmpty then _ else _) = _ ↔ _
    cases g.sort.isEmpty <;> cases g.unit <;> simp
  | cons c rest =>
    cases hall : (c :: rest).all Call.isLookup with
    | true => simp
    | false => cases g.sort.isEmpty <;> cases g.unit <;> simp

theorem mode_ne_offset_of_lookup_eq_none (h : ∀ c ∈ g.calls, c.lookup = none) :
    g.mode ≠ .offset := by
  intro hmode
  obtain ⟨hne, hall⟩ := mode_eq_offset_iff.mp hmode
  obtain ⟨c, hc⟩ := List.exists_mem_of_ne_nil g.calls hne
  have hlookup := List.all_eq_true.mp hall c hc
  rw [Call.isLookup, h c hc] at hlookup
  cases hlookup

/-- Without lookups the mode of a group follows from its ordering and what its distances count. -/
theorem mode_cases (h : g.mode ≠ .offset) :
    g.sort = [] ∧ g.mode = .insensitive ∨ g.sort ≠ [] ∧ g.unit = .rows ∧ g.mode = .row ∨
      g.sort ≠ [] ∧ g.unit = .range ∧ g.mode = .range := by
  unfold mode at h ⊢
  split at h
  · exact absurd rfl h
  · rename_i hcalls
    rw [if_neg hcalls]
    cases g.sort <;> cases g.unit <;> simp

theorem mode_eq_row_iff : g.mode = .row ↔ g.mode ≠ .offset ∧ g.sort ≠ [] ∧ g.unit = .rows := by
  constructor
  · intro h
    have hoffset : g.mode ≠ .offset := by
      rw [h]
      nofun
    rcases mode_cases hoffset with ⟨-, hmode⟩ | ⟨hsort, hunit, -⟩ | ⟨-, -, hmode⟩
    · cases hmode.symm.trans h
    · exact ⟨hoffset, hsort, hunit⟩
    · cases hmode.symm.trans h
  · rintro ⟨hoffset, hsort, hunit⟩
    rcases mode_cases hoffset with ⟨hnil, -⟩ | ⟨-, -, hmode⟩ | ⟨-, hrange, -⟩
    · exact absurd hnil hsort
    · exact hmode
    · cases hunit.symm.trans hrange

theorem unit_eq_of_mode_eq_row (h : g.mode = .row) : g.unit = .rows := (mode_eq_row_iff.mp h).2.2

theorem unit_eq_of_mode_eq_range (h : g.mode = .range) : g.unit = .range := by
  rcases mode_cases (by rw [h]; nofun) with ⟨-, hmode⟩ | ⟨-, -, hmode⟩ | ⟨-, hunit, -⟩
  · cases hmode.symm.trans h
  · cases hmode.symm.trans h
  · exact hunit

theorem sort_eq_nil_of_mode_eq_insensitive (h : g.mode = .insensitive) : g.sort = [] := by
  rcases mode_cases (by rw [h]; nofun) with ⟨hsort, -⟩ | ⟨-, -, hmode⟩ | ⟨-, -, hmode⟩
  · exact hsort
  · cases hmode.symm.trans h
  · cases hmode.symm.trans h

/-- Where not all calls are lookups, an accepted group has none. -/
theorem lookup_eq_none (hmix : ¬(g.calls.any Call.isLookup && !g.calls.all Call.isLookup) = true)
    (hmode : g.mode ≠ .offset) {c : Call} (hc : c ∈ g.calls) : c.lookup = none := by
  -- Groups of lookups alone have their own mode, and mixed groups are refused.
  have hall : g.calls.all Call.isLookup = false := by
    cases hall : g.calls.all Call.isLookup with
    | false => rfl
    | true => exact absurd (mode_eq_offset_iff.mpr ⟨List.ne_nil_of_mem hc, hall⟩) hmode
  cases hlookup : c.lookup with
  | none => rfl
  | some lookup =>
    refine absurd ?_ hmix
    rw [hall, List.any_eq_true.mpr ⟨c, hc, by rw [Call.isLookup, hlookup]; rfl⟩]
    rfl

/-- **Acceptance.** An accepted group has its fields, and is either a group of lookups or one
over a frame. -/
theorem accepted_of_check (h : g.check position types registry = .ok ()) :
    g.FieldsAccepted types ∧
      (g.mode = .offset → g.LookupsAccepted types registry) ∧
      (g.mode ≠ .offset → ∃ shape, g.FrameAccepted types registry shape) := by
  obtain ⟨⟨⟩, hfields, h⟩ := Answer.ok_of_bind_ok h
  by_cases hempty : g.calls.isEmpty
  · rw [if_pos hempty] at h
    cases h
  rw [if_neg hempty] at h
  by_cases hmix : g.calls.any Call.isLookup && !g.calls.all Call.isLookup
  · rw [if_pos hmix] at h
    cases h
  rw [if_neg hmix] at h
  refine ⟨fieldsAccepted_of_checkFields hfields, fun hmode => ?_, fun hmode => ?_⟩
  · rw [if_pos hmode] at h
    exact lookupsAccepted_of_checkLookups h (mode_eq_offset_iff.mp hmode).2
  · rw [if_neg hmode] at h
    exact frameAccepted_of_checkFramed h fun c hc => lookup_eq_none hmix hmode hc

end WindowGroup

end SqlWindow
