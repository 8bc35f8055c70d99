import TerminalHost.Keys
import TerminalHost.Proofs.Text.Letters
import TerminalHost.Round

/-!
# A round from guess to guess

Only a letter that the word does not hold costs an attempt, and such a letter does not
complete the word.  So a round without attempts is lost, and a round that is not lost has
between one and six of them.
-/

namespace TerminalHost

/-! ## Letters -/

theorem Keys.isLetter_of_letter? {octet : UInt8} {letter : Char}
    (h : letter? octet = some letter) : Text.isLetter letter = true := by
  simp only [letter?] at h
  split at h
  · rename_i hletter
    rw [Option.some.injEq] at h
    rw [← h]
    exact Text.isLetter_toUpper hletter
  · simp at h

theorem Keys.isLetter_of_firstLetter? {heard : Bytes} {letter : Char}
    (h : firstLetter? heard = some letter) : Text.isLetter letter = true := by
  obtain ⟨octet, -, hoctet⟩ := List.exists_of_findSome?_eq_some h
  exact isLetter_of_letter? hoctet

/-! ## Guesses -/

namespace Round

/-- A round that may still go on has an attempt left, and no round has more than it began
with. -/
structure Fair (r : Round) : Prop where
  attempts_le : r.attempts ≤ maxAttempts
  attempts_pos : r.standing ≠ .lost → 0 < r.attempts

theorem fair_start (target : String) : (start target).Fair :=
  ⟨Nat.le_refl _, fun _ => Nat.succ_pos 5⟩

theorem standing_eq_won_iff {r : Round} :
    r.standing = .won ↔ r.target.toList.all r.knows = true := by
  unfold standing
  split
  · simp_all
  · split <;> simp_all

theorem standing_eq_lost_iff {r : Round} :
    r.standing = .lost ↔ ¬ r.target.toList.all r.knows = true ∧ r.attempts = 0 := by
  unfold standing
  split
  · simp_all
  · split <;> simp_all

theorem standing_start_ne_lost (target : String) : (start target).standing ≠ .lost := by
  intro h
  have hzero : (start target).attempts = 0 := (standing_eq_lost_iff.mp h).2
  exact absurd hzero (Nat.succ_ne_zero 5)

theorem guess_of_closed {r : Round} {c : Char}
    (h : ¬ (Text.isLetter c = true ∧ r.standing = .inProgress)) :
    r.guess c = (.rejected, r) := by
  have hclosed : (!Text.isLetter c || r.standing != .inProgress) = true := by
    simpa [Decidable.imp_iff_not_or] using h
  rw [guess, if_pos hclosed]

theorem guess_of_open {r : Round} {c : Char} (hletter : Text.isLetter c = true)
    (hstanding : r.standing = .inProgress) :
    r.guess c
      = if r.knows c.toUpper then (.again, r)
        else if r.holds c.toUpper then
          (.hit, { r with guessed := insertLetter c.toUpper r.guessed })
        else
          (.miss,
            { r with
              guessed := insertLetter c.toUpper r.guessed
              attempts := r.attempts - 1 }) := by
  have hopen : ¬ (!Text.isLetter c || r.standing != .inProgress) = true := by
    simp [hletter, hstanding]
  rw [guess, if_neg hopen]

theorem guess_ne_rejected {r : Round} {c : Char} (hletter : Text.isLetter c = true)
    (hstanding : r.standing = .inProgress) : (r.guess c).1 ≠ .rejected := by
  rw [guess_of_open hletter hstanding]
  split
  · simp
  · split <;> simp

/-- A letter that the word does not hold does not complete it. -/
theorem all_knows_of_not_holds {r s : Round} {letter : Char} (h : ¬ r.holds letter = true)
    (htarget : s.target = r.target) (hguessed : s.guessed = insertLetter letter r.guessed) :
    s.target.toList.all s.knows = r.target.toList.all r.knows := by
  have hknows (c : Char) (hc : c ∈ r.target.toList) : s.knows c = r.knows c := by
    have hne : c ≠ letter := by
      rintro rfl
      exact h (by simpa [holds] using hc)
    rw [knows, hguessed, knows, Bool.eq_iff_iff, List.contains_iff_mem,
      List.contains_iff_mem, mem_insertLetter]
    simp [hne]
  rw [htarget, Bool.eq_iff_iff, List.all_eq_true, List.all_eq_true]
  constructor
  · intro hall c hc
    rw [← hknows c hc]
    exact hall c hc
  · intro hall c hc
    rw [hknows c hc]
    exact hall c hc

theorem Fair.guess {r : Round} (h : r.Fair) (c : Char) : (r.guess c).2.Fair := by
  by_cases hopen : Text.isLetter c = true ∧ r.standing = .inProgress
  · obtain ⟨hletter, hstanding⟩ := hopen
    have hpos : 0 < r.attempts := h.attempts_pos (by simp [hstanding])
    rw [guess_of_open hletter hstanding]
    split
    · exact h
    · split
      · exact ⟨h.attempts_le, fun _ => hpos⟩
      · rename_i hholds
        refine ⟨Nat.le_trans (Nat.sub_le _ _) h.attempts_le, fun hlost => ?_⟩
        apply Nat.pos_of_ne_zero
        intro hzero
        apply hlost
        let missed : Round :=
          ⟨r.target, insertLetter c.toUpper r.guessed, r.attempts - 1⟩
        have hknown : missed.target.toList.all missed.knows
            = r.target.toList.all r.knows := all_knows_of_not_holds hholds rfl rfl
        have hopen : ¬ r.target.toList.all r.knows = true := by
          rw [← standing_eq_won_iff, hstanding]
          simp
        rw [← hknown] at hopen
        exact standing_eq_lost_iff.mpr ⟨hopen, hzero⟩
  · rw [guess_of_closed hopen]
    exact h

theorem Fair.guessAll {r : Round} (h : r.Fair) (letters : List Char) :
    (r.guessAll letters).Fair := by
  induction letters generalizing r with
  | nil => exact h
  | cons letter rest ih => exact ih (h.guess letter)

def Accepts : Round → List Char → Prop
  | _, [] => True
  | r, letter :: rest =>
    Text.isLetter letter = true ∧ r.standing = .inProgress ∧ (r.guess letter).2.Accepts rest

theorem accepts_append {r : Round} {left right : List Char} :
    r.Accepts (left ++ right) ↔ r.Accepts left ∧ (r.guessAll left).Accepts right := by
  induction left generalizing r with
  | nil => simp [Accepts]
  | cons letter rest ih =>
    rw [List.cons_append, Accepts, Accepts, ih, guessAll_cons]
    simp only [and_assoc]

end Round

end TerminalHost
