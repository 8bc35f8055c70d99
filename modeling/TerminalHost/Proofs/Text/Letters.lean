import TerminalHost.Proofs.Text.Blank
import TerminalHost.Words

/-!
# Texts of letters

The fifty-two letters are two ranges of code points.  None of them is white space, and a
letter in capitals is a letter, so a text of letters is one in capitals too.  A word is
accepted if its inner part is a text of letters that is not empty.
-/

namespace TerminalHost

namespace Text

theorem isLetter_toUpper {c : Char} (h : isLetter c = true) : isLetter c.toUpper = true := by
  by_cases hlower : 'a'.val ≤ c.val ∧ c.val ≤ 'z'.val
  · have hval : c.toUpper.val = c.val + ('A'.val - 'a'.val) := by
      delta Char.toUpper
      rw [dif_pos hlower]
    have hsmall : 'a'.val.toNat = 97 := rfl
    have hlast : 'z'.val.toNat = 122 := rfl
    have hshift : ('A'.val - 'a'.val).toNat = 4294967264 := rfl
    rw [UInt32.le_iff_toNat_le, UInt32.le_iff_toNat_le] at hlower
    have hupper : 65 ≤ c.toUpper.val.toNat ∧ c.toUpper.val.toNat ≤ 90 := by
      rw [hval, UInt32.toNat_add]
      omega
    have hisUpper : c.toUpper.isUpper = true := decide_eq_true hupper
    show (c.toUpper.isUpper || c.toUpper.isLower) = true
    rw [hisUpper, Bool.true_or]
  · have hsame : c.toUpper = c := by
      delta Char.toUpper
      rw [dif_neg hlower]
    rwa [hsame]

theorem toNat_of_isLetter {c : Char} (h : isLetter c = true) :
    (65 ≤ c.toNat ∧ c.toNat ≤ 90) ∨ (97 ≤ c.toNat ∧ c.toNat ≤ 122) := by
  have hcases : c.isUpper = true ∨ c.isLower = true := by
    rw [← Bool.or_eq_true]
    exact h
  rcases hcases with hupper | hlower
  · exact .inl (of_decide_eq_true hupper)
  · obtain ⟨hlow, hhigh⟩ := Bool.and_eq_true_iff.mp hlower
    exact .inr ⟨of_decide_eq_true hlow, of_decide_eq_true hhigh⟩

theorem isBlank_of_isLetter {c : Char} (h : isLetter c = true) : isBlank c = false := by
  have hpoint := toNat_of_isLetter h
  rw [← Bool.not_eq_true]
  intro hblank
  simp only [isBlank, Bool.or_eq_true, Bool.and_eq_true, decide_eq_true_eq, beq_iff_eq] at hblank
  omega

def IsSpelled (text : String) : Prop := ∀ c ∈ text.toList, isLetter c = true

theorem isSpelled_ofList {chars : List Char} (h : chars.all isLetter = true) :
    IsSpelled (String.ofList chars) := by
  intro c hc
  rw [String.toList_ofList] at hc
  exact List.all_eq_true.mp h c hc

theorem IsSpelled.capitals {text : String} (h : IsSpelled text) : IsSpelled (capitals text) := by
  intro c hc
  rw [toList_capitals, List.mem_map] at hc
  obtain ⟨d, hd, rfl⟩ := hc
  exact isLetter_toUpper (h d hd)

theorem IsSpelled.trim_eq {text : String} (h : IsSpelled text) : trim text = text := by
  apply trim_of_no_blanks
  intro c hc
  exact isBlank_of_isLetter (h c hc)

theorem capitals_eq_empty_iff {text : String} : capitals text = "" ↔ text = "" := by
  rw [← String.toList_eq_nil_iff, toList_capitals, List.map_eq_nil_iff, String.toList_eq_nil_iff]

end Text

/-- The words that are accepted, and what they are accepted as. -/
theorem normalizeWord?_eq_some_iff {word accepted : String} :
    normalizeWord? word = some accepted ↔
      Text.trim word ≠ "" ∧ Text.IsSpelled (Text.trim word) ∧
        Text.capitals (Text.trim word) = accepted := by
  unfold normalizeWord? Text.IsSpelled
  rw [Option.ite_none_left_eq_some, Bool.or_eq_true, not_or, List.isEmpty_iff,
    String.toList_eq_nil_iff, Bool.not_eq_true', Bool.not_eq_false, List.all_eq_true,
    Option.some.injEq, and_assoc]

end TerminalHost
