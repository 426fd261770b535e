import Mathlib.Data.List.Forall2
import SqlWindow.Proofs.Answer
import SqlWindow.Proofs.Options.MemorySize

set_option autoImplicit false

/-! # Queries as they are written

`Options.Sets parameter setting` is the grammar of one parameter of a query: a known key, an equals
sign, and a value that the key admits. A query describes options exactly when every parameter that
is not empty is written like this, and each option is then what the last parameter says that names
it.
-/

namespace SqlWindow

namespace Options

variable {o o' : Options}

/-! ## Settings -/

/-- What one parameter of a query says. -/
inductive Setting where
  | memory (bytes : ℕ)
  | spillDirectory (path : String)
  | pageRows (rows : ℕ) (pos : 0 < rows)

namespace Setting

/-- The options with what a parameter says. -/
def applyTo (o : Options) : Setting → Options
  | memory bytes => { o with memory := bytes }
  | spillDirectory path => { o with spillDirectory := some path }
  | pageRows rows pos => { o with pageRows := rows, pageRows_pos := pos }

/-- The memory budget, if that is what is set. -/
def memory? : Setting → Option ℕ
  | memory bytes => some bytes
  | _ => none

/-- The directory of the spill files, if that is what is set. -/
def spillDirectory? : Setting → Option String
  | spillDirectory path => some path
  | _ => none

/-- The rows of a page, if that is what is set. -/
def pageRows? : Setting → Option ℕ
  | pageRows rows _ => some rows
  | _ => none

end Setting

/-- Decimal digits of a 64-bit number, behind at most one plus sign. -/
def IsCount (text : List Char) (n : ℕ) : Prop :=
  ∃ digits, (text = digits ∨ text = '+' :: digits) ∧ IsDecimal digits n ∧ n < 2 ^ 64

/-- The keys of the memory budget. -/
def memoryKeys : List String :=
  ["external_buffer_memory", "table.exec.resource.external-buffer-memory"]

/-- What a key and a value say, both without the blanks around them. -/
inductive Says : String → List Char → Setting → Prop
  | memory {key : String} {value : List Char} {bytes : ℕ} (hkey : key ∈ memoryKeys)
    (h : IsMemorySize value bytes) : Says key value (.memory bytes)
  | spillDirectory {value : List Char} (h : value ≠ []) :
    Says "spill_dir" value (.spillDirectory (String.ofList value))
  | pageRows {value : List Char} {rows : ℕ} (h : IsCount value rows) (pos : 0 < rows) :
    Says "spill_page_rows" value (.pageRows rows pos)

/-- What a parameter says: its key stands before its first equals sign, its value behind. -/
def Sets (parameter : List Char) (setting : Setting) : Prop :=
  ∃ name rest key value, parameter = name ++ '=' :: rest ∧ '=' ∉ name ∧
    Trims name key.toList ∧ Trims rest value ∧ Says key value setting

/-! ## Values -/

theorem count?_eq_some_iff {text : List Char} {n : ℕ} : count? text = some n ↔ IsCount text n := by
  have hplus : ∀ digits : List Char, ¬IsDecimal ('+' :: digits) n := fun digits h =>
    absurd (h.isDigit '+' List.mem_cons_self) (by decide)
  unfold count?
  split
  · rename_i digits
    rw [natOfDigits?_eq_some_iff]
    constructor
    · rintro ⟨hdecimal, hlt⟩
      exact ⟨digits, .inr rfl, hdecimal, hlt⟩
    · rintro ⟨_, rfl | hdigits, hdecimal, hlt⟩
      · exact absurd hdecimal (hplus digits)
      · cases hdigits
        exact ⟨hdecimal, hlt⟩
  · rename_i hnot
    rw [natOfDigits?_eq_some_iff]
    constructor
    · rintro ⟨hdecimal, hlt⟩
      exact ⟨text, .inl rfl, hdecimal, hlt⟩
    · rintro ⟨digits, rfl | rfl, hdecimal, hlt⟩
      · exact ⟨hdecimal, hlt⟩
      · exact absurd rfl (hnot digits)

/-- No key admits the empty value. -/
theorem not_says_nil {key : String} {setting : Setting} : ¬Says key [] setting := by
  rintro (⟨-, _, _, _, _, _, htrims, hdecimal, -⟩ | h | ⟨⟨digits, rfl | h, hdecimal, -⟩, _⟩)
  · exact hdecimal.ne_nil (List.append_eq_nil_iff.mp (trims_iff.mp htrims).symm).1
  · exact h rfl
  · exact hdecimal.ne_nil rfl
  · cases h

/-! ## One parameter -/

section Set

variable {key value : List Char} {setting : Setting} {e : Error}

theorem set_of_says (h : Says (String.ofList key) value setting) (o : Options) :
    o.set key value = .ok (setting.applyTo o) := by
  unfold set
  generalize String.ofList key = name at h ⊢
  cases h with
  | @memory _ _ bytes hkey h =>
    have hparse : parseMemorySize (String.ofList value) = .ok bytes :=
      parseMemorySize_eq_ok_iff.mpr (by rwa [String.toList_ofList])
    simp only [memoryKeys, List.mem_cons, List.not_mem_nil, or_false] at hkey
    rcases hkey with rfl | rfl <;> exact Answer.bind_of_ok hparse
  | spillDirectory h =>
    show (if value.isEmpty = true then _ else _) = _
    rw [if_neg (by simpa using h)]
    rfl
  | @pageRows _ rows h pos =>
    obtain ⟨rows, rfl⟩ := Nat.exists_eq_add_one.mpr pos
    simp only [count?_eq_some_iff.mpr h]
    rfl

theorem says_of_set (h : o.set key value = .ok o') :
    ∃ setting, Says (String.ofList key) value setting ∧ o' = setting.applyTo o := by
  have hmemory : ∀ name ∈ memoryKeys,
      (parseMemorySize (String.ofList value) >>= fun memory => pure { o with memory }) = .ok o' →
      ∃ setting, Says name value setting ∧ o' = setting.applyTo o := by
    intro name hname h
    obtain ⟨bytes, hbytes, hset⟩ := Answer.ok_of_bind_ok h
    cases hset
    rw [parseMemorySize_eq_ok_iff, String.toList_ofList] at hbytes
    exact ⟨.memory bytes, .memory hname hbytes, rfl⟩
  unfold set at h
  generalize String.ofList key = name at h ⊢
  split at h
  · exact hmemory _ List.mem_cons_self h
  · exact hmemory _ (List.mem_cons_of_mem _ List.mem_cons_self) h
  · split at h
    · cases h
    · rename_i hvalue
      cases h
      exact ⟨_, .spillDirectory (by simpa using hvalue), rfl⟩
  · split at h
    · rename_i rows hrows
      cases h
      exact ⟨_, .pageRows (count?_eq_some_iff.mp hrows) rows.succ_pos, rfl⟩
    · cases h
  · cases h

theorem kind_of_set_eq_error (h : o.set key value = .error e) : e.kind = .validation := by
  have hmemory : (parseMemorySize (String.ofList value) >>=
      fun memory => pure { o with memory }) = .error e → e.kind = .validation := by
    intro h
    rcases Answer.error_of_bind_error h with hparse | ⟨_, -, hset⟩
    · exact kind_of_parseMemorySize_eq_error hparse
    · cases hset
  unfold set at h
  split at h
  · exact hmemory h
  · exact hmemory h
  · split at h
    · cases h
      rfl
    · cases h
  · split at h
    · cases h
    · cases h
      rfl
  · cases h
    rfl

end Set

/-- A parameter is split at its first equals sign. -/
theorem split_of_notMem {name : List Char} (h : '=' ∉ name) (rest : List Char) :
    (name ++ '=' :: rest).takeWhile (· != '=') = name ∧
      ((name ++ '=' :: rest).dropWhile (· != '=')).drop 1 = rest := by
  have hname : ∀ c ∈ name, (c != '=') = true := fun c hc =>
    bne_iff_ne.mpr fun heq => h (heq ▸ hc)
  have hrest : ∀ c ∈ ('=' :: rest).head?, (c != '=') = false := by
    rintro c ⟨⟩
    rfl
  refine ⟨takeWhile_append_of_head? hname hrest, ?_⟩
  rw [dropWhile_append_of_head? hname hrest]
  rfl

/-- **One parameter** sets what it says. -/
theorem setParameter_eq_ok_iff {parameter : List Char} :
    o.setParameter parameter = .ok o' ↔
      ∃ setting, Sets parameter setting ∧ o' = setting.applyTo o := by
  constructor
  · intro h
    obtain ⟨setting, hsays, ho'⟩ := says_of_set h
    refine ⟨setting, ?_, ho'⟩
    have hparts := List.takeWhile_append_dropWhile (p := (· != '=')) (l := parameter)
    cases hrest : parameter.dropWhile (· != '=') with
    | nil =>
      -- without an equals sign the value is empty
      rw [hrest] at hsays
      exact absurd hsays not_says_nil
    | cons c rest =>
      have hhead : c ∈ (parameter.dropWhile (· != '=')).head? := by
        rw [hrest]
        rfl
      have hequals := eq_false_of_mem_head?_dropWhile hhead
      obtain rfl : c = '=' := by simpa using hequals
      rw [hrest] at hparts hsays
      refine ⟨_, rest, _, _, hparts.symm, fun hmem => ?_, ?_, trims_trimBlanks rest, hsays⟩
      · simpa using List.mem_takeWhile_imp hmem
      · rw [String.toList_ofList]
        exact trims_trimBlanks _
  · rintro ⟨setting, ⟨name, rest, key, value, rfl, hname, hkey, hvalue, hsays⟩, rfl⟩
    obtain ⟨hfront, hback⟩ := split_of_notMem hname rest
    rw [setParameter, hfront, hback, trims_iff.mp hkey, trims_iff.mp hvalue]
    exact set_of_says (by rwa [String.ofList_toList]) o

/-! ## Queries -/

/-- The parts of a query between its ampersands that are not empty. -/
def parameters (query : String) : List (List Char) :=
  (query.toList.splitOn '&').filter (!·.isEmpty)

theorem splitAt_eq_splitOn (separator : Char) (text : List Char) :
    splitAt separator text = text.splitOn separator := by
  induction text with
  | nil => rfl
  | cons c text ih =>
    rw [splitAt, List.splitOn_cons_eq_if_modifyHead, ih]
    simp only [beq_iff_eq]
    cases htext : text.splitOn separator with
    | nil => exact absurd htext (List.splitOn_ne_nil separator text)
    | cons part parts => rfl

theorem ofQuery_eq_foldlM (query : String) :
    ofQuery query = (parameters query).foldlM setParameter {} := by
  rw [ofQuery, splitAt_eq_splitOn]
  rfl

/-- The last setting of each option stays. -/
theorem eq_foldl_applyTo_iff {settings : List Setting} :
    o' = settings.foldl Setting.applyTo o ↔
      o'.memory = (settings.filterMap Setting.memory?).getLastD o.memory ∧
      o'.spillDirectory =
        ((settings.filterMap Setting.spillDirectory?).getLast?).or o.spillDirectory ∧
      o'.pageRows = (settings.filterMap Setting.pageRows?).getLastD o.pageRows := by
  induction settings generalizing o with
  | nil =>
    obtain ⟨memory, spillDirectory, pageRows, _⟩ := o
    obtain ⟨memory', spillDirectory', pageRows', _⟩ := o'
    simp
  | cons setting settings ih =>
    rw [List.foldl_cons, ih]
    cases setting <;>
      simp only [Setting.applyTo, Setting.memory?, Setting.spillDirectory?, Setting.pageRows?,
        List.filterMap_cons, List.getLastD_cons, List.getLast?_cons, Option.some_or, Option.or_some]

/-- Parameters that each say something say a list of settings. -/
theorem exists_settings_iff {ps : List (List Char)} :
    (∃ settings, List.Forall₂ Sets ps settings) ↔ ∀ p ∈ ps, ∃ setting, Sets p setting := by
  induction ps with
  | nil => exact ⟨fun _ => nofun, fun _ => ⟨[], .nil⟩⟩
  | cons p ps ih =>
    rw [List.forall_mem_cons, ← ih]
    constructor
    · rintro ⟨_, _ | ⟨hp, hps⟩⟩
      exact ⟨⟨_, hp⟩, ⟨_, hps⟩⟩
    · rintro ⟨⟨setting, hp⟩, settings, hps⟩
      exact ⟨setting :: settings, .cons hp hps⟩

theorem ofQuery_eq_ok_iff {query : String} :
    ofQuery query = .ok o ↔ ∃ settings, List.Forall₂ Sets (parameters query) settings ∧
      o = settings.foldl Setting.applyTo {} := by
  rw [ofQuery_eq_foldlM]
  exact Answer.foldlM_eq_ok_iff fun o p o' => @setParameter_eq_ok_iff o o' p

/-- A query is accepted when each of its parameters says something. -/
theorem exists_ofQuery_eq_ok_iff {query : String} :
    (∃ o, ofQuery query = .ok o) ↔ ∀ p ∈ parameters query, ∃ setting, Sets p setting := by
  rw [← exists_settings_iff]
  constructor
  · rintro ⟨o, h⟩
    obtain ⟨settings, hsettings, -⟩ := ofQuery_eq_ok_iff.mp h
    exact ⟨settings, hsettings⟩
  · rintro ⟨settings, hsettings⟩
    exact ⟨_, ofQuery_eq_ok_iff.mpr ⟨settings, hsettings, rfl⟩⟩

theorem kind_of_ofQuery_eq_error {query : String} {e : Error} (h : ofQuery query = .error e) :
    e.kind = .validation := by
  rw [ofQuery_eq_foldlM] at h
  obtain ⟨_, -, _, hfail⟩ := Answer.exists_of_foldlM_eq_error h
  exact kind_of_set_eq_error hfail

/-- **Options as written.** A memory size is read exactly when the text is one. A query is read
exactly when each of its parameters sets something; every option is then what the last parameter
says that sets it, or the default. All other queries have a validation error. -/
theorem read_as_written :
    (∀ (size : String) (bytes : ℕ),
      parseMemorySize size = .ok bytes ↔ IsMemorySize size.toList bytes) ∧
    ∀ query : String,
      ((∃ o, ofQuery query = .ok o) ↔ ∀ p ∈ parameters query, ∃ setting, Sets p setting) ∧
      ((∃ e, ofQuery query = .error e ∧ e.kind = .validation) ↔
        ∃ p ∈ parameters query, ∀ setting, ¬Sets p setting) ∧
      ∀ o : Options, ofQuery query = .ok o ↔
        ∃ settings, List.Forall₂ Sets (parameters query) settings ∧
          o.memory = (settings.filterMap Setting.memory?).getLastD (10 * 1024 * 1024) ∧
          o.spillDirectory = (settings.filterMap Setting.spillDirectory?).getLast? ∧
          o.pageRows = (settings.filterMap Setting.pageRows?).getLastD 1024 := by
  refine ⟨fun _ _ => parseMemorySize_eq_ok_iff, fun query =>
    ⟨exists_ofQuery_eq_ok_iff, ?_, fun o => ?_⟩⟩
  · have hnot : (∃ p ∈ parameters query, ∀ setting, ¬Sets p setting) ↔
        ¬∃ o, ofQuery query = .ok o := by
      simp [exists_ofQuery_eq_ok_iff]
    rw [hnot]
    constructor
    · rintro ⟨e, he, -⟩ ⟨o, ho⟩
      cases he.symm.trans ho
    · intro h
      cases hquery : ofQuery query with
      | ok o => exact absurd ⟨o, hquery⟩ h
      | error e => exact ⟨e, rfl, kind_of_ofQuery_eq_error hquery⟩
  · simp only [ofQuery_eq_ok_iff, eq_foldl_applyTo_iff, Option.or_none]

/-- Blanks, an empty parameter, a plus sign, a second equals sign, and a key given twice. -/
example : ofQuery "spill_page_rows=8&spill_dir= /a=b &&spill_page_rows =+07" =
    .ok { spillDirectory := some "/a=b", pageRows := 7 } := by
  rfl

end Options

end SqlWindow
