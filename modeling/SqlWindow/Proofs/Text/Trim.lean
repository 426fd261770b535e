import Mathlib.Data.List.TakeWhile
import SqlWindow.Text.Blank

set_option autoImplicit false

/-! # Trimmed text

`Trims text core` says what it is to take the blanks from both ends of a text, without saying how:
`core` is the text between them, and it neither starts nor ends with a blank. Of every text there
is one such core, and `trimBlanks` finds it.
-/

namespace SqlWindow

/-! ## Runs in front of a list -/

section Runs

variable {α : Type} {p : α → Bool} {front rest : List α}

/-- A run in front ends where the first element fails. -/
theorem takeWhile_append_of_head? (hfront : ∀ a ∈ front, p a = true)
    (hrest : ∀ a ∈ rest.head?, p a = false) : (front ++ rest).takeWhile p = front := by
  rw [List.takeWhile_append_of_pos hfront]
  cases rest with
  | nil => exact List.append_nil front
  | cons a rest => rw [List.takeWhile_cons_of_neg (by simp [hrest a rfl]), List.append_nil]

theorem dropWhile_append_of_head? (hfront : ∀ a ∈ front, p a = true)
    (hrest : ∀ a ∈ rest.head?, p a = false) : (front ++ rest).dropWhile p = rest := by
  rw [List.dropWhile_append_of_pos hfront]
  cases rest with
  | nil => rfl
  | cons a rest => exact List.dropWhile_cons_of_neg (by simp [hrest a rfl])

theorem eq_false_of_mem_head?_dropWhile {l : List α} {a : α} (h : a ∈ (l.dropWhile p).head?) :
    p a = false := by
  have hnot := List.head?_dropWhile_not p l
  rwa [Option.mem_def.mp h] at hnot

end Runs

/-! ## Blanks around a text -/

/-- `core` is `text` without the blanks around it. -/
structure Trims (text core : List Char) : Prop where
  blanks : ∃ before after, text = before ++ core ++ after ∧
    (∀ c ∈ before, isBlank c = true) ∧ ∀ c ∈ after, isBlank c = true
  head : ∀ c ∈ core.head?, isBlank c = false
  last : ∀ c ∈ core.getLast?, isBlank c = false

theorem trims_trimBlanks (text : List Char) : Trims text (trimBlanks text) := by
  unfold trimBlanks
  generalize hrest : text.dropWhile isBlank = rest
  have htext : text.takeWhile isBlank ++ rest = text := hrest ▸ List.takeWhile_append_dropWhile
  have hback := congrArg List.reverse
    (List.takeWhile_append_dropWhile (p := isBlank) (l := rest.reverse))
  rw [List.reverse_append, List.reverse_reverse] at hback
  refine ⟨⟨text.takeWhile isBlank, (rest.reverse.takeWhile isBlank).reverse, ?_,
    fun c hc => List.mem_takeWhile_imp hc,
    fun c hc => List.mem_takeWhile_imp (List.mem_reverse.mp hc)⟩, fun c hc => ?_, fun c hc => ?_⟩
  · rw [List.append_assoc, hback, htext]
  · -- what the core starts with, the rest of the text starts with
    refine eq_false_of_mem_head?_dropWhile (l := text) ?_
    rw [hrest, ← hback, List.head?_append, Option.mem_def.mp hc]
    rfl
  · rw [List.getLast?_reverse] at hc
    exact eq_false_of_mem_head?_dropWhile hc

/-- **Trimming** finds the core of a text. -/
theorem trims_iff {text core : List Char} : Trims text core ↔ trimBlanks text = core := by
  refine ⟨?_, fun h => h ▸ trims_trimBlanks text⟩
  rintro ⟨⟨before, after, rfl, hbefore, hafter⟩, hhead, hlast⟩
  unfold trimBlanks
  cases core with
  | nil =>
    have hall : ∀ c ∈ before ++ [] ++ after, isBlank c = true := by
      intro c hc
      rw [List.append_nil] at hc
      exact (List.mem_append.mp hc).elim (hbefore c) (hafter c)
    rw [List.dropWhile_eq_nil_iff.mpr hall]
    rfl
  | cons a core =>
    have hfront : (before ++ (a :: core ++ after)).dropWhile isBlank = a :: core ++ after :=
      dropWhile_append_of_head? hbefore hhead
    have hback : (after.reverse ++ (a :: core).reverse).dropWhile isBlank = (a :: core).reverse :=
      dropWhile_append_of_head? (fun c hc => hafter c (List.mem_reverse.mp hc))
        (by rwa [List.head?_reverse])
    rw [List.append_assoc, hfront, List.reverse_append, hback, List.reverse_reverse]

end SqlWindow
