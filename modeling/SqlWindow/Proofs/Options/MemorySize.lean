import Mathlib.Data.List.Basic
import Mathlib.Data.List.Induction
import Mathlib.Data.Nat.Digits.Defs
import SqlWindow.Options
import SqlWindow.Proofs.Text.Trim

set_option autoImplicit false

/-! # Memory sizes as they are written

`Options.IsMemorySize text bytes` is the grammar of memory sizes: between blanks stand decimal
digits, blanks, and a unit, and the amount times the unit is a 64-bit number. A memory size is read
exactly when it is written like this, and then as the number of bytes that it stands for.
-/

namespace SqlWindow

namespace Options

/-! ## Decimal numbers -/

/-- One or more decimal digits, the leading one first, that stand for a number. -/
structure IsDecimal (digits : List Char) (n : ℕ) : Prop where
  ne_nil : digits ≠ []
  isDigit : ∀ d ∈ digits, d.isDigit = true
  value : n = Nat.ofDigits 10 (digits.reverse.map fun d => d.toNat - '0'.toNat)

theorem digitsValue_concat (digits : List Char) (d : Char) :
    digitsValue (digits ++ [d]) = 10 * digitsValue digits + (d.toNat - '0'.toNat) := by
  rw [digitsValue, List.foldl_append]
  rfl

theorem digitsValue_eq_ofDigits (digits : List Char) :
    digitsValue digits = Nat.ofDigits 10 (digits.reverse.map fun d => d.toNat - '0'.toNat) := by
  induction digits using List.reverseRecOn with
  | nil => rfl
  | append_singleton digits d ih =>
    rw [digitsValue_concat, ih, List.reverse_concat, List.map_cons, Nat.ofDigits_cons,
      Nat.add_comm]

/-- Digits are read as the number they stand for, when it has 64 bits. -/
theorem natOfDigits?_eq_some_iff {digits : List Char} {n : ℕ} :
    natOfDigits? digits = some n ↔ IsDecimal digits n ∧ n < 2 ^ 64 := by
  have hsize : UInt64.size = 2 ^ 64 := rfl
  unfold natOfDigits?
  rw [← hsize]
  by_cases hdigits : (digits.isEmpty || digits.any fun d => !d.isDigit) = true
  · rw [if_pos hdigits]
    refine ⟨nofun, fun ⟨h, _⟩ => ?_⟩
    rcases Bool.or_eq_true_iff.mp hdigits with hnil | hany
    · exact absurd (List.isEmpty_iff.mp hnil) h.ne_nil
    · obtain ⟨d, hd, hnot⟩ := List.any_eq_true.mp hany
      simp [h.isDigit d hd] at hnot
  · have hdecimal : IsDecimal digits (digitsValue digits) := by
      simp only [Bool.or_eq_true, List.isEmpty_iff, List.any_eq_true, not_or, not_exists, not_and,
        Bool.not_eq_true', Bool.not_eq_false] at hdigits
      exact ⟨hdigits.1, hdigits.2, digitsValue_eq_ofDigits digits⟩
    rw [if_neg hdigits]
    constructor
    · intro h
      split at h
      · cases h
        exact ⟨hdecimal, by assumption⟩
      · cases h
    · rintro ⟨h, hlt⟩
      rw [h.value, ← digitsValue_eq_ofDigits] at hlt ⊢
      rw [if_pos hlt]

/-! ## Units -/

/-- The units, each with the power of 1024 that it stands for. -/
def units : List (String × ℕ) :=
  [("", 0), ("b", 0), ("k", 1), ("kb", 1), ("m", 2), ("mb", 2), ("g", 3), ("gb", 3)]

/-- One of the units, or nothing, in letters of either case, that stands for a number of bytes. -/
def IsUnitName (name : List Char) (bytes : ℕ) : Prop :=
  ∃ unit ∈ units, name.map Char.toLower = unit.1.toList ∧ bytes = 1024 ^ unit.2

theorem unit?_eq_some_iff {name : List Char} {bytes : ℕ} :
    unit? name = some bytes ↔ IsUnitName name bytes := by
  constructor
  · intro h
    unfold unit? at h
    split at h
    case h_9 => cases h
    all_goals
      rename_i hname
      replace hname := congrArg String.toList hname
      rw [String.toList_ofList] at hname
      cases h
      simp [IsUnitName, units, hname]
  · rintro ⟨unit, hunit, hname, rfl⟩
    unfold unit?
    rw [hname, String.ofList_toList]
    simp only [units, List.mem_cons, List.not_mem_nil, or_false] at hunit
    rcases hunit with rfl | rfl | rfl | rfl | rfl | rfl | rfl | rfl <;> rfl

/-- Only upper-case letters are changed to lower case. -/
theorem toNat_bounds_of_toLower_ne {c : Char} (h : c.toLower ≠ c) :
    'A'.toNat ≤ c.toNat ∧ c.toNat ≤ 'Z'.toNat := by
  by_contra hother
  exact h (dif_neg hother)

/-- An upper-case letter is neither a digit nor a blank. -/
theorem not_isDigit_not_isBlank_of_toNat_bounds {c : Char}
    (h : 'A'.toNat ≤ c.toNat ∧ c.toNat ≤ 'Z'.toNat) : c.isDigit = false ∧ isBlank c = false := by
  have hlow : 65 ≤ c.toNat := h.1
  have hhigh : c.toNat ≤ 90 := h.2
  constructor
  · have hnot : ¬c.toNat ≤ 57 := by omega
    simp only [Char.isDigit, Bool.and_eq_false_iff, decide_eq_false_iff_not,
      UInt32.le_iff_toNat_le]
    exact .inr hnot
  · simp [isBlank]
    omega

theorem not_isDigit_not_isBlank_of_mem {name : List Char} {bytes : ℕ} (h : IsUnitName name bytes)
    {c : Char} (hc : c ∈ name) : c.isDigit = false ∧ isBlank c = false := by
  obtain ⟨unit, hunit, hname, -⟩ := h
  have hlower : c.toLower ∈ unit.1.toList := hname ▸ List.mem_map_of_mem hc
  have hletter : c.toLower ∈ ['b', 'k', 'm', 'g'] := by
    have hletters : ∀ unit ∈ units, ∀ d ∈ unit.1.toList, d ∈ ['b', 'k', 'm', 'g'] := by
      simp [units]
    exact hletters unit hunit _ hlower
  by_cases hsame : c.toLower = c
  · have hnot : ∀ d ∈ ['b', 'k', 'm', 'g'], d.isDigit = false ∧ isBlank d = false := by
      simp [isBlank]
    exact hnot c (hsame ▸ hletter)
  · exact not_isDigit_not_isBlank_of_toNat_bounds (toNat_bounds_of_toLower_ne hsame)

/-! ## Memory sizes -/

/-- A text that stands for a number of bytes. Trimmed, it is decimal digits, blanks and a unit; the
amount times the unit is a 64-bit number. -/
def IsMemorySize (text : List Char) (bytes : ℕ) : Prop :=
  ∃ digits blanks unit amount multiplier,
    Trims text (digits ++ (blanks ++ unit)) ∧ IsDecimal digits amount ∧
    (∀ c ∈ blanks, isBlank c = true) ∧ IsUnitName unit multiplier ∧
    bytes = amount * multiplier ∧ bytes < 2 ^ 64

/-- A digit is not a blank. -/
theorem not_isDigit_of_isBlank {c : Char} (h : isBlank c = true) : c.isDigit = false := by
  by_contra hdigit
  simp only [Bool.not_eq_false, Char.isDigit, Bool.and_eq_true, decide_eq_true_eq, ge_iff_le,
    UInt32.le_iff_toNat_le] at hdigit
  have hlow : 48 ≤ c.toNat := hdigit.1
  have hhigh : c.toNat ≤ 57 := hdigit.2
  simp [isBlank] at h
  omega

/-- Behind its digits a trimmed text has blanks and a rest that is trimmed itself. -/
theorem exists_blanks_of_trims {text core : List Char} (h : Trims text core) :
    ∃ blanks, core.dropWhile Char.isDigit = blanks ++ trimBlanks (core.dropWhile Char.isDigit) ∧
      ∀ c ∈ blanks, isBlank c = true := by
  have hcore := List.takeWhile_append_dropWhile (p := Char.isDigit) (l := core)
  generalize core.takeWhile Char.isDigit = digits at hcore
  generalize core.dropWhile Char.isDigit = rest at hcore ⊢
  obtain ⟨before, after, hrest, hbefore, hafter⟩ := (trims_trimBlanks rest).blanks
  rcases List.eq_nil_or_concat' after with rfl | ⟨front, c, rfl⟩
  · rw [List.append_nil] at hrest
    exact ⟨before, hrest, hbefore⟩
  · -- a blank at the end would be at the end of the trimmed text
    have hlast : c ∈ core.getLast? := by
      rw [← hcore, hrest, ← List.append_assoc, ← List.append_assoc, List.getLast?_concat]
      rfl
    have hblank := hafter c (List.mem_append_right _ (List.mem_singleton_self c))
    rw [h.last c hlast] at hblank
    cases hblank

/-- A text of digits, blanks and a unit is taken apart as it was put together. -/
theorem parts_of_append {digits blanks unit : List Char} {multiplier : ℕ}
    (hdigits : ∀ d ∈ digits, d.isDigit = true) (hblanks : ∀ c ∈ blanks, isBlank c = true)
    (hunit : IsUnitName unit multiplier) :
    (digits ++ (blanks ++ unit)).takeWhile Char.isDigit = digits ∧
      trimBlanks ((digits ++ (blanks ++ unit)).dropWhile Char.isDigit) = unit := by
  have hrest : ∀ c ∈ (blanks ++ unit).head?, c.isDigit = false := by
    intro c hc
    rcases List.mem_append.mp (List.mem_of_mem_head? hc) with hblank | hletter
    · exact not_isDigit_of_isBlank (hblanks c hblank)
    · exact (not_isDigit_not_isBlank_of_mem hunit hletter).1
  refine ⟨takeWhile_append_of_head? hdigits hrest, ?_⟩
  rw [dropWhile_append_of_head? hdigits hrest]
  refine trims_iff.mp ⟨⟨blanks, [], (List.append_nil _).symm, hblanks, nofun⟩, ?_, ?_⟩
  · exact fun c hc => (not_isDigit_not_isBlank_of_mem hunit (List.mem_of_mem_head? hc)).2
  · exact fun c hc => (not_isDigit_not_isBlank_of_mem hunit (List.mem_of_mem_getLast? hc)).2

/-- A size is read from the parts of the trimmed text. -/
theorem memorySize?_eq_some_iff_parts {text : List Char} {bytes : ℕ} :
    memorySize? text = some bytes ↔ ∃ amount multiplier,
      natOfDigits? ((trimBlanks text).takeWhile Char.isDigit) = some amount ∧
      unit? (trimBlanks ((trimBlanks text).dropWhile Char.isDigit)) = some multiplier ∧
      bytes = amount * multiplier ∧ bytes < 2 ^ 64 := by
  have hsize : UInt64.size = 2 ^ 64 := rfl
  simp only [memorySize?, ← hsize, Option.bind_eq_bind, Option.bind_eq_some_iff, guard,
    Option.pure_def, Option.some.injEq]
  refine exists_congr fun amount => ?_
  rw [← exists_and_left]
  refine exists_congr fun multiplier => and_congr_right fun _ => and_congr_right fun _ => ?_
  by_cases hlt : amount * multiplier < UInt64.size
  · rw [if_pos hlt]
    constructor
    · rintro ⟨-, -, rfl⟩
      exact ⟨rfl, hlt⟩
    · rintro ⟨rfl, -⟩
      exact ⟨⟨⟩, rfl, rfl⟩
  · rw [if_neg hlt]
    constructor
    · exact fun ⟨_, hnone, _⟩ => nomatch hnone
    · rintro ⟨rfl, h⟩
      exact absurd h hlt

/-- **Memory sizes** are read exactly when they are written as such, and as the bytes they stand
for. -/
theorem memorySize?_eq_some_iff {text : List Char} {bytes : ℕ} :
    memorySize? text = some bytes ↔ IsMemorySize text bytes := by
  rw [memorySize?_eq_some_iff_parts]
  constructor
  · rintro ⟨amount, multiplier, hamount, hmultiplier, hbytes, hlt⟩
    have htrims := trims_trimBlanks text
    obtain ⟨blanks, hrest, hblanks⟩ := exists_blanks_of_trims htrims
    refine ⟨_, blanks, _, amount, multiplier, ?_, (natOfDigits?_eq_some_iff.mp hamount).1, hblanks,
      unit?_eq_some_iff.mp hmultiplier, hbytes, hlt⟩
    rwa [← hrest, List.takeWhile_append_dropWhile]
  · rintro ⟨digits, blanks, unit, amount, multiplier, htrims, hdecimal, hblanks, hunit, hbytes, hlt⟩
    obtain ⟨hdigits, hrest⟩ := parts_of_append hdecimal.isDigit hblanks hunit
    rw [trims_iff.mp htrims, hdigits, hrest]
    have hamount : amount < 2 ^ 64 := by
      obtain ⟨_, -, -, rfl⟩ := hunit
      exact (Nat.le_mul_of_pos_right amount (Nat.pow_pos (by decide))).trans_lt (hbytes ▸ hlt)
    exact ⟨amount, multiplier, natOfDigits?_eq_some_iff.mpr ⟨hdecimal, hamount⟩,
      unit?_eq_some_iff.mpr hunit, hbytes, hlt⟩

theorem parseMemorySize_eq_ok_iff {s : String} {bytes : ℕ} :
    parseMemorySize s = .ok bytes ↔ IsMemorySize s.toList bytes := by
  rw [← memorySize?_eq_some_iff, parseMemorySize]
  cases memorySize? s.toList <;> simp

theorem kind_of_parseMemorySize_eq_error {s : String} {e : Error}
    (h : parseMemorySize s = .error e) : e.kind = .validation := by
  unfold parseMemorySize at h
  split at h
  · cases h
  · cases h
    rfl

end Options

end SqlWindow
