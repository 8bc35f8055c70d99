import Mathlib.Data.Finset.Card
import Mathlib.Data.Finset.SDiff
import TerminalHost.Proofs.Game.Race

/-!
# A round counts down

The characters of the word that are still missing and the attempts that are left add up to
a number that every new letter lowers by one: a letter of the word takes one from the
missing characters, any other letter takes an attempt.  The round is over as soon as either
part has come to nothing, so the number never does, and only so many letters can be new.
-/

namespace TerminalHost

namespace Round

def missing (r : Round) : Finset Char := r.target.toList.toFinset \ r.guessed.toFinset

/-- The missing characters and the attempts that are left. -/
def remaining (r : Round) : Nat := r.missing.card + r.attempts

variable {r : Round} {c : Char}

theorem mem_missing_iff : c ∈ r.missing ↔ r.holds c = true ∧ ¬ r.knows c = true := by
  rw [missing, Finset.mem_sdiff, List.mem_toFinset, List.mem_toFinset, holds, knows,
    List.contains_iff_mem, List.contains_iff_mem]

theorem missing_start (target : String) :
    (start target).missing = (Text.capitals target).toList.toFinset := by
  rw [missing]
  exact Finset.sdiff_empty

theorem missing_eq_empty_iff : r.missing = ∅ ↔ r.standing = .won := by
  rw [standing_eq_won_iff, List.all_eq_true, missing, Finset.sdiff_eq_empty_iff_subset]
  simp only [Finset.subset_iff, List.mem_toFinset, knows, List.contains_iff_mem]

/-- A round is over exactly if one of the two parts has come to nothing. -/
theorem standing_ne_inProgress_iff :
    r.standing ≠ .inProgress ↔ r.missing.card = 0 ∨ r.attempts = 0 := by
  rw [Finset.card_eq_zero, missing_eq_empty_iff]
  by_cases hwon : r.standing = .won
  · simp [hwon]
  · have hpartial : ¬ r.target.toList.all r.knows = true := mt standing_eq_won_iff.mpr hwon
    have hlost : r.standing = .lost ↔ r.attempts = 0 := by
      rw [standing_eq_lost_iff, and_iff_right hpartial]
    rw [← hlost]
    cases hstanding : r.standing <;> simp_all

/-! ## One guess -/

theorem missing_insertLetter (r : Round) (c : Char) (attempts : Nat) :
    { r with guessed := insertLetter c r.guessed, attempts := attempts }.missing
      = r.missing.erase c := by
  have hinsert : (insertLetter c r.guessed).toFinset = insert c r.guessed.toFinset := by
    ext d
    rw [List.mem_toFinset, mem_insertLetter, Finset.mem_insert, List.mem_toFinset]
  rw [missing, hinsert, Finset.sdiff_insert, missing]

/-- A guess takes as much from what remains as it counts. -/
theorem remaining_guess (r : Round) (c : Char) :
    (r.guess c).2.remaining + r.tried [c] = r.remaining := by
  by_cases hopen : Text.isLetter c = true ∧ r.standing = .inProgress
  · obtain ⟨hletter, hstanding⟩ := hopen
    have hattempts : r.attempts ≠ 0 := by
      intro hzero
      exact standing_ne_inProgress_iff.mpr (.inr hzero) hstanding
    rw [tried_singleton, guess_of_open hletter hstanding]
    by_cases hknown : r.knows c.toUpper = true
    · rw [if_pos hknown]
      rfl
    · rw [if_neg hknown]
      by_cases hholds : r.holds c.toUpper = true
      · have hcard : (r.missing.erase c.toUpper).card + 1 = r.missing.card :=
          Finset.card_erase_add_one (mem_missing_iff.mpr ⟨hholds, hknown⟩)
        rw [if_pos hholds, if_pos (.inl rfl), remaining, missing_insertLetter, remaining]
        show (r.missing.erase c.toUpper).card + r.attempts + 1 = r.missing.card + r.attempts
        omega
      · have hsame : r.missing.erase c.toUpper = r.missing := by
          apply Finset.erase_eq_of_notMem
          intro hmem
          exact hholds (mem_missing_iff.mp hmem).1
        rw [if_neg hholds, if_pos (.inr rfl), remaining, missing_insertLetter, hsame, remaining]
        show r.missing.card + (r.attempts - 1) + 1 = r.missing.card + r.attempts
        omega
  · rw [tried_singleton, guess_of_closed hopen]
    rfl

/-- The last new letter leaves something: it is taken while both parts are there. -/
theorem remaining_guess_pos (h : 0 < r.remaining) (c : Char) :
    0 < (r.guess c).2.remaining := by
  have hstep := r.remaining_guess c
  by_cases hopen : r.standing = .inProgress
  · have hparts := mt standing_ne_inProgress_iff.mpr (not_not_intro hopen)
    rw [not_or] at hparts
    have hone : r.tried [c] ≤ 1 := by
      rw [tried_singleton]
      split <;> omega
    unfold remaining at hstep ⊢
    omega
  · rw [guess_of_closed fun hboth => hopen hboth.2]
    exact h

/-! ## Many guesses -/

theorem remaining_guessAll (r : Round) (cs : List Char) :
    (r.guessAll cs).remaining + r.tried cs = r.remaining := by
  induction cs generalizing r with
  | nil => rfl
  | cons c rest ih =>
    have hsplit : r.tried (c :: rest) = r.tried [c] + (r.guess c).2.tried rest :=
      r.tried_append [c] rest
    rw [guessAll_cons, hsplit]
    have hfirst := r.remaining_guess c
    have hrest := ih (r.guess c).2
    omega

theorem remaining_guessAll_pos (h : 0 < r.remaining) (cs : List Char) :
    0 < (r.guessAll cs).remaining := by
  induction cs generalizing r with
  | nil => exact h
  | cons c rest ih => exact ih (remaining_guess_pos h c)

structure CountsDown (target : String) (cs : List Char) (r : Round) : Prop where
  /-- A new letter is a missing character or an attempt. -/
  new : ∀ c, (r.guess c).1 = .hit ∨ (r.guess c).1 = .miss →
    (r.guess c).2.missing.card + (r.guess c).2.attempts + 1 = r.missing.card + r.attempts
  /-- Any other guess changes nothing. -/
  old : ∀ c, (r.guess c).1 = .again ∨ (r.guess c).1 = .rejected → (r.guess c).2 = r
  ended : r.standing ≠ .inProgress ↔ r.missing.card = 0 ∨ r.attempts = 0
  /-- What was taken and what remains is what the round began with. -/
  taken : (start target).tried cs + (r.missing.card + r.attempts)
    = (Text.capitals target).toList.toFinset.card + 6
  tried_le : (start target).tried cs ≤ (Text.capitals target).toList.toFinset.card + 5

/-- **A round counts down.**  Whatever the target and whatever has been guessed: a guess
that is a new letter takes exactly one from the missing characters and the attempts
together, and any other guess leaves the round as it is.  The round is over exactly if one
of the two has come to nothing.  So with `d` different characters in its target at most
`d + 5` guesses are ever new letters, and capitals do not make more characters different. -/
theorem counts_down (target : String) (cs : List Char) :
    ((start target).guessAll cs).CountsDown target cs ∧
      (Text.capitals target).toList.toFinset.card ≤ target.toList.toFinset.card := by
  have hstart : (start target).remaining
      = (Text.capitals target).toList.toFinset.card + 6 := by
    rw [remaining, missing_start]
    rfl
  have hrest := (start target).remaining_guessAll cs
  have hpos : 0 < ((start target).guessAll cs).remaining := by
    apply remaining_guessAll_pos
    omega
  rw [hstart, Nat.add_comm] at hrest
  refine ⟨⟨fun c hnew => ?_, fun c hold => guess_unchanged hold, standing_ne_inProgress_iff,
    hrest, by omega⟩, ?_⟩
  · have hstep := ((start target).guessAll cs).remaining_guess c
    rwa [tried_singleton, if_pos hnew] at hstep
  · have himage : (Text.capitals target).toList.toFinset
        = target.toList.toFinset.image Char.toUpper := by
      ext c
      simp
    rw [himage]
    exact Finset.card_image_le

/-- Five letters that are not in the word, and then all of its own. -/
example : (start "fox").tried ['a', 'b', 'c', 'd', 'e', 'F', 'o', 'X', 'y'] = 3 + 5 := by
  decide +kernel

end Round

end TerminalHost
