import Mathlib.Data.List.DropRight
import TerminalHost.Text.Blank

/-!
# The inner part of a text

A text has one inner part: what is left without the white space around it.  Trimming finds
this part, and a text that has no white space at its ends is its own inner part.
-/

namespace TerminalHost.Text

/-- The text is `inner` with nothing but white space around it, and `inner` neither begins
nor ends with white space. -/
structure Pads (text inner : String) : Prop where
  around : ∃ before after, text.toList = before ++ inner.toList ++ after ∧
    (∀ c ∈ before, isBlank c = true) ∧ ∀ c ∈ after, isBlank c = true
  first : ∀ c, inner.toList.head? = some c → isBlank c = false
  last : ∀ c, inner.toList.getLast? = some c → isBlank c = false

variable {text inner : String}

theorem trimChars_eq (chars : List Char) :
    trimChars chars = (chars.dropWhile isBlank).rdropWhile isBlank := rfl

theorem rdropWhile_append_of_pos {left right : List Char}
    (h : ∀ c ∈ right, isBlank c = true) :
    (left ++ right).rdropWhile isBlank = left.rdropWhile isBlank := by
  have hreverse : ∀ c ∈ right.reverse, isBlank c = true := by
    intro c hc
    exact h c (List.mem_reverse.mp hc)
  unfold List.rdropWhile
  rw [List.reverse_append, List.dropWhile_append_of_pos hreverse]

theorem pads_trim (text : String) : Pads text (trim text) := by
  have hinner : (trim text).toList
      = (text.toList.dropWhile isBlank).rdropWhile isBlank := by
    rw [trim, String.toList_ofList, trimChars_eq]
  constructor
  · refine ⟨text.toList.takeWhile isBlank,
      (text.toList.dropWhile isBlank).rtakeWhile isBlank, ?_, ?_, ?_⟩
    · rw [hinner, List.append_assoc, List.rdropWhile_append_rtakeWhile,
        List.takeWhile_append_dropWhile]
    · intro c hc
      exact List.mem_takeWhile_imp hc
    · intro c hc
      exact List.mem_rtakeWhile_imp hc
  · intro c hc
    rw [hinner] at hc
    obtain ⟨rest, hrest⟩ := List.rdropWhile_prefix isBlank (text.toList.dropWhile isBlank)
    have hfirst : (text.toList.dropWhile isBlank).head? = some c := by
      rw [← hrest, List.head?_append, hc]
      rfl
    have hnot := List.head?_dropWhile_not isBlank text.toList
    rwa [hfirst] at hnot
  · intro c hc
    rw [hinner] at hc
    have hne := List.ne_nil_of_mem (List.mem_of_getLast? hc)
    have hnot := List.rdropWhile_last_not isBlank _ hne
    rw [List.getLast?_eq_some_getLast hne, Option.some.injEq] at hc
    rwa [hc, Bool.not_eq_true] at hnot

/-- A text has no other inner part than the one trimming finds. -/
theorem Pads.eq_trim (h : Pads text inner) : inner = trim text := by
  obtain ⟨before, after, htext, hbefore, hafter⟩ := h.around
  have hfront : text.toList.dropWhile isBlank = (inner.toList ++ after).dropWhile isBlank := by
    rw [htext, List.append_assoc, List.dropWhile_append_of_pos hbefore]
  apply String.toList_injective
  rw [trim, String.toList_ofList, trimChars_eq, hfront]
  cases hchars : inner.toList with
  | nil =>
    have hnothing : after.dropWhile isBlank = [] := List.dropWhile_eq_nil_iff.mpr hafter
    rw [List.nil_append, hnothing, List.rdropWhile_nil]
  | cons first rest =>
    have hfirst : ¬ isBlank first = true := by
      rw [Bool.not_eq_true]
      apply h.first
      rw [hchars, List.head?_cons]
    have hkept : (first :: rest).rdropWhile isBlank = first :: rest := by
      apply List.rdropWhile_eq_self_iff.mpr
      intro hne
      rw [Bool.not_eq_true]
      apply h.last
      rw [hchars, List.getLast?_eq_some_getLast hne]
    rw [List.cons_append, List.dropWhile_cons_of_neg hfirst, ← List.cons_append,
      rdropWhile_append_of_pos hafter, hkept]

theorem trim_of_no_blanks (h : ∀ c ∈ text.toList, isBlank c = false) : trim text = text := by
  symm
  apply Pads.eq_trim
  constructor
  · refine ⟨[], [], ?_, ?_, ?_⟩
    · rw [List.nil_append, List.append_nil]
    · intro c hc
      cases hc
    · intro c hc
      cases hc
  · intro c hc
    exact h c (List.mem_of_head? hc)
  · intro c hc
    exact h c (List.mem_of_getLast? hc)

end TerminalHost.Text
