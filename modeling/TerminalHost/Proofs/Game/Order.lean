import Mathlib.Data.List.Induction
import TerminalHost.Proofs.Game.Race

/-!
# The order of the guesses

A round that goes on has counted every letter it was given, so nothing about it tells in
which order they came, and a round that is over is over in every order.  What the order can
decide is who wins, and it can do so only if the letters complete both the word and the
gallows: then the word wins if its letters are guessed first, and the gallows win if the
others are.
-/

namespace TerminalHost

/-! ## The rules in another order -/

namespace Race

variable {word left right : List Char}

theorem nodup_letters (cs : List Char) : (letters cs).Nodup := by
  unfold letters
  induction (cs.filter Text.isLetter).map Char.toUpper using List.reverseRecOn with
  | nil => exact List.nodup_nil
  | append_singleton before c ih =>
    rw [eraseDups_snoc]
    split
    · exact ih
    · rename_i hnew
      apply List.nodup_append.mpr
      refine ⟨ih, List.pairwise_singleton _ c, ?_⟩
      intro d hd e he heq
      rw [List.mem_singleton] at he
      rw [heq, he, List.mem_eraseDups] at hd
      exact hnew hd

theorem mem_letters_iff {cs : List Char} {letter : Char} :
    letter ∈ letters cs ↔ ∃ c ∈ cs, Text.isLetter c = true ∧ c.toUpper = letter := by
  simp only [letters, List.mem_eraseDups, List.mem_map, List.mem_filter, and_assoc]

theorem mem_letters_filter_iff (keep : Char → Bool) {cs : List Char} {letter : Char} :
    letter ∈ letters (cs.filter fun c => keep c.toUpper) ↔
      letter ∈ letters cs ∧ keep letter = true := by
  rw [mem_letters_iff, mem_letters_iff]
  constructor
  · rintro ⟨c, hc, hletter, rfl⟩
    obtain ⟨hmem, hkept⟩ := List.mem_filter.mp hc
    exact ⟨⟨c, hmem, hletter, rfl⟩, hkept⟩
  · rintro ⟨⟨c, hc, hletter, rfl⟩, hkept⟩
    exact ⟨c, List.mem_filter.mpr ⟨hc, hkept⟩, hletter, rfl⟩

theorem letters_perm (h : left.Perm right) : (letters left).Perm (letters right) := by
  apply (List.perm_ext_iff_of_nodup (nodup_letters left) (nodup_letters right)).mpr
  intro letter
  rw [mem_letters_iff, mem_letters_iff]
  simp only [h.mem_iff]

theorem misses_perm (h : left.Perm right) : misses word left = misses word right :=
  h.countP_eq _

theorem exhausts_perm (h : left.Perm right) : exhausts word left = exhausts word right := by
  rw [exhausts, exhausts, misses_perm h]

theorem completes_eq_true_iff : completes word left = true ↔ ∀ c ∈ word, c ∈ left := by
  simp only [completes, List.all_eq_true, List.contains_iff_mem]

theorem completes_perm (h : left.Perm right) : completes word left = completes word right := by
  rw [Bool.eq_iff_iff, completes_eq_true_iff, completes_eq_true_iff]
  simp only [h.mem_iff]

theorem completes_of_take {count : Nat} (h : completes word (left.take count) = true) :
    completes word left = true := by
  rw [completes_eq_true_iff] at h ⊢
  intro c hc
  exact List.mem_of_mem_take (h c hc)

theorem exhausts_of_take {count : Nat} (h : exhausts word (left.take count) = true) :
    exhausts word left = true := by
  have hle : misses word (left.take count) ≤ misses word left :=
    (List.take_sublist count left).countP_le
  unfold exhausts at h ⊢
  rw [decide_eq_true_eq] at h ⊢
  omega

/-- The characters that are letters of the word, in either case. -/
def hits (word cs : List Char) : List Char := cs.filter fun c => word.contains c.toUpper

def strays (word cs : List Char) : List Char := cs.filter fun c => !word.contains c.toUpper

theorem hits_append_strays_perm (word cs : List Char) :
    (hits word cs ++ strays word cs).Perm cs := List.filter_append_perm _ cs

theorem mem_letters_hits_iff {cs : List Char} {letter : Char} :
    letter ∈ letters (hits word cs) ↔ letter ∈ letters cs ∧ letter ∈ word := by
  unfold hits
  rw [mem_letters_filter_iff word.contains, List.contains_iff_mem]

theorem mem_letters_strays_iff {cs : List Char} {letter : Char} :
    letter ∈ letters (strays word cs) ↔ letter ∈ letters cs ∧ (!word.contains letter) = true :=
  mem_letters_filter_iff fun letter => !word.contains letter

theorem misses_hits (word cs : List Char) : misses word (letters (hits word cs)) = 0 := by
  apply List.countP_eq_zero.mpr
  intro letter hletter
  rw [List.contains_iff_mem.mpr (mem_letters_hits_iff.mp hletter).2]
  decide

theorem completes_hits (word cs : List Char) :
    completes word (letters (hits word cs)) = completes word (letters cs) := by
  rw [Bool.eq_iff_iff, completes_eq_true_iff, completes_eq_true_iff]
  apply forall₂_congr
  intro letter hword
  rw [mem_letters_hits_iff]
  exact and_iff_left hword

theorem not_mem_letters_strays {letter : Char} (hword : letter ∈ word) (cs : List Char) :
    letter ∉ letters (strays word cs) := by
  intro hletter
  have hstray := (mem_letters_strays_iff.mp hletter).2
  rw [List.contains_iff_mem.mpr hword] at hstray
  exact Bool.false_ne_true hstray

theorem misses_strays (word cs : List Char) :
    misses word (letters (strays word cs)) = misses word (letters cs) := by
  have hsame : ((letters (strays word cs)).filter fun letter => !word.contains letter).Perm
      ((letters cs).filter fun letter => !word.contains letter) := by
    apply (List.perm_ext_iff_of_nodup ((nodup_letters _).filter _)
      ((nodup_letters cs).filter _)).mpr
    intro letter
    rw [List.mem_filter, List.mem_filter, mem_letters_strays_iff, and_assoc, and_self]
  calc misses word (letters (strays word cs))
      = ((letters (strays word cs)).filter fun letter => !word.contains letter).length :=
        List.countP_eq_length_filter
    _ = ((letters cs).filter fun letter => !word.contains letter).length := hsame.length_eq
    _ = misses word (letters cs) := List.countP_eq_length_filter.symm

end Race

/-! ## Rounds in another order -/

namespace Round

variable {word letters : List Char} {count : Nat} {r : Round}

theorem guessAll_of_over (hover : r.standing ≠ .inProgress) (cs : List Char) :
    r.guessAll cs = r := by
  induction cs with
  | nil => rfl
  | cons c rest ih =>
    rw [guessAll_cons, guess_of_closed fun hboth => hover hboth.2]
    exact ih

/-- A round goes on if all the letters together complete neither the word nor the gallows. -/
theorem Races.standing_eq_inProgress_iff_all (h : r.Races word letters count) :
    r.standing = .inProgress ↔
      Race.completes word letters = false ∧ Race.exhausts word letters = false := by
  constructor
  · intro hopen
    have hall := h.standing_eq_inProgress_iff.mp hopen
    rwa [h.count_eq hopen, List.take_length] at hall
  · rintro ⟨hcomplete, hexhaust⟩
    apply h.standing_eq_inProgress_iff.mpr
    rw [← Bool.not_eq_true] at hcomplete hexhaust ⊢
    rw [← Bool.not_eq_true]
    exact ⟨mt Race.completes_of_take hcomplete, mt Race.exhausts_of_take hexhaust⟩

/-- With fewer than six letters that the word does not hold, only the word can be complete. -/
theorem Races.standing_eq_of_misses_lt (h : r.Races word letters count)
    (hfew : Race.misses word letters < 6) :
    r.standing = if Race.completes word letters then .won else .inProgress := by
  have hexhaust : ¬ Race.exhausts word letters = true := by
    unfold Race.exhausts
    rw [decide_eq_true_eq]
    omega
  cases hstanding : r.standing with
  | won =>
    have hcomplete := h.standing_eq_won_iff.mp hstanding
    rw [if_pos (Race.completes_of_take hcomplete)]
  | lost =>
    have hlost := (h.standing_eq_lost_iff.mp hstanding).2
    exact absurd (Race.exhausts_of_take hlost) hexhaust
  | inProgress =>
    have hcomplete := (h.standing_eq_inProgress_iff_all.mp hstanding).1
    rw [if_neg (Bool.not_eq_true _ ▸ hcomplete)]

/-- Letters that complete the gallows and not the word lose. -/
theorem Races.standing_eq_lost (h : r.Races word letters count)
    (hpartial : ¬ Race.completes word letters = true)
    (hexhaust : Race.exhausts word letters = true) : r.standing = .lost := by
  cases hstanding : r.standing with
  | won =>
    have hcomplete := h.standing_eq_won_iff.mp hstanding
    exact absurd (Race.completes_of_take hcomplete) hpartial
  | lost => rfl
  | inProgress =>
    have hopen := (h.standing_eq_inProgress_iff_all.mp hstanding).2
    rw [hexhaust] at hopen
    exact Bool.noConfusion hopen

/-- Two rounds that have counted the same letters are the same. -/
theorem Races.eq_of_perm {s : Round} {others : List Char} {total : Nat}
    (h : r.Races word letters count) (hs : s.Races word others total)
    (hperm : (letters.take count).Perm (others.take total)) : s = r := by
  have htarget : s.target = r.target := by
    apply String.toList_injective
    rw [hs.target, h.target]
  have hguessed : s.guessed = r.guessed := by
    apply List.Perm.eq_of_pairwise _ hs.sorted h.sorted
    · exact hs.guessed.trans (hperm.symm.trans h.guessed.symm)
    · intro c d _ _ hcd hdc
      exact absurd hdc (Char.lt_asymm hcd)
  have hattempts : s.attempts = r.attempts := by
    have hr := h.attempts
    rw [Race.misses_perm hperm, ← hs.attempts] at hr
    omega
  cases r
  cases s
  simp_all

theorem standing_guessAll_hits {target : String} {cs : List Char}
    (hcomplete : Race.completes (Text.capitals target).toList (Race.letters cs) = true) :
    ((start target).guessAll (Race.hits (Text.capitals target).toList cs)).standing = .won := by
  have hraces := races_guessAll target (Race.hits (Text.capitals target).toList cs)
  have hnone := Race.misses_hits (Text.capitals target).toList cs
  rw [hraces.standing_eq_of_misses_lt (by omega), Race.completes_hits, if_pos hcomplete]

theorem standing_guessAll_strays {target : String} (hne : target ≠ "") {cs : List Char}
    (hmany : 6 ≤ Race.misses (Text.capitals target).toList (Race.letters cs)) :
    ((start target).guessAll (Race.strays (Text.capitals target).toList cs)).standing
      = .lost := by
  apply (races_guessAll target _).standing_eq_lost
  · have hsome : (Text.capitals target).toList ≠ [] := by
      intro hnil
      exact hne (Text.capitals_eq_empty_iff.mp (String.toList_eq_nil_iff.mp hnil))
    obtain ⟨letter, hletter⟩ := List.exists_mem_of_ne_nil _ hsome
    rw [Race.completes_eq_true_iff]
    intro hall
    exact Race.not_mem_letters_strays hletter cs (hall letter hletter)
  · unfold Race.exhausts
    rw [Race.misses_strays]
    exact decide_eq_true hmany

/-- The order of the guesses can decide who wins exactly if the letters complete the word,
which is not empty, and the gallows. -/
theorem exists_won_and_lost_iff (target : String) (cs : List Char) :
    (∃ winning losing : List Char, winning.Perm cs ∧ losing.Perm cs ∧
      ((start target).guessAll winning).standing = .won ∧
      ((start target).guessAll losing).standing = .lost) ↔
    target ≠ "" ∧ Race.completes (Text.capitals target).toList (Race.letters cs) = true ∧
      6 ≤ Race.misses (Text.capitals target).toList (Race.letters cs) := by
  constructor
  · rintro ⟨winning, losing, hwinning, hlosing, hwon, hlost⟩
    have hcomplete := (races_guessAll target winning).standing_eq_won_iff.mp hwon
    obtain ⟨hpartial, hexhaust⟩ := (races_guessAll target losing).standing_eq_lost_iff.mp hlost
    refine ⟨?_, ?_, ?_⟩
    · rintro rfl
      exact Bool.noConfusion hpartial
    · rw [← Race.completes_perm (Race.letters_perm hwinning)]
      exact Race.completes_of_take hcomplete
    · apply of_decide_eq_true
      rw [← Race.misses_perm (Race.letters_perm hlosing)]
      exact Race.exhausts_of_take hexhaust
  · rintro ⟨hne, hcomplete, hmany⟩
    have hwon := standing_guessAll_hits hcomplete
    have hlost := standing_guessAll_strays hne hmany
    have hperm := Race.hits_append_strays_perm (Text.capitals target).toList cs
    refine ⟨_, _, hperm, List.perm_append_comm.trans hperm, ?_, ?_⟩
    · rw [guessAll_append, guessAll_of_over (by rw [hwon]; decide), hwon]
    · rw [guessAll_append, guessAll_of_over (by rw [hlost]; decide), hlost]

/-- **The order of the guesses.**  Two rounds on one target are guessed with the same
characters in different orders.  If one goes on, the other is in the very same state; one
is over exactly if the other is; and both end alike if fewer than six letters are not in the
target.  With more of them the order can decide who wins, exactly if the letters also
complete a target that is not empty. -/
theorem guessAll_perm (target : String) {left right : List Char} (h : left.Perm right) :
    (((start target).guessAll left).standing = .inProgress →
      (start target).guessAll right = (start target).guessAll left) ∧
    (((start target).guessAll left).standing ≠ .inProgress ↔
      ((start target).guessAll right).standing ≠ .inProgress) ∧
    (Race.misses (Text.capitals target).toList (Race.letters left) < 6 →
      ((start target).guessAll right).standing = ((start target).guessAll left).standing) ∧
    ((∃ winning losing : List Char, winning.Perm left ∧ losing.Perm left ∧
        ((start target).guessAll winning).standing = .won ∧
        ((start target).guessAll losing).standing = .lost) ↔
      target ≠ "" ∧ Race.completes (Text.capitals target).toList (Race.letters left) = true ∧
        6 ≤ Race.misses (Text.capitals target).toList (Race.letters left)) := by
  have hletters := Race.letters_perm h
  have hleft := races_guessAll target left
  have hright := races_guessAll target right
  have hopen : ((start target).guessAll left).standing = .inProgress ↔
      ((start target).guessAll right).standing = .inProgress := by
    rw [hleft.standing_eq_inProgress_iff_all, hright.standing_eq_inProgress_iff_all,
      Race.completes_perm hletters, Race.exhausts_perm hletters]
  refine ⟨?_, not_congr hopen, ?_, exists_won_and_lost_iff target left⟩
  · intro hstanding
    apply hleft.eq_of_perm hright
    rw [hleft.count_eq hstanding, hright.count_eq (hopen.mp hstanding), List.take_length,
      List.take_length]
    exact hletters
  · intro hfew
    rw [hleft.standing_eq_of_misses_lt hfew,
      hright.standing_eq_of_misses_lt (Race.misses_perm hletters ▸ hfew),
      Race.completes_perm hletters]

theorem guessAll_perm_fox :
    ['f', 'a', '1', 'O'].Perm ['O', '1', 'a', 'f'] ∧
    ((start "Fox").guessAll ['f', 'a', '1', 'O']).standing = .inProgress ∧
    Race.misses (Text.capitals "Fox").toList (Race.letters ['f', 'a', '1', 'O']) < 6 ∧
    (start "Fox").guessAll ['O', '1', 'a', 'f'] = (start "Fox").guessAll ['f', 'a', '1', 'O'] ∧
    ((start "Fox").guessAll ['O', '1', 'a', 'f']).standing
      = ((start "Fox").guessAll ['f', 'a', '1', 'O']).standing := by
  have hperm : ['f', 'a', '1', 'O'].Perm ['O', '1', 'a', 'f'] := by decide
  have hopen : ((start "Fox").guessAll ['f', 'a', '1', 'O']).standing = .inProgress := by
    decide +kernel
  have hfew : Race.misses (Text.capitals "Fox").toList (Race.letters ['f', 'a', '1', 'O']) < 6 := by
    decide +kernel
  obtain ⟨hsame, -, hstanding, -⟩ := guessAll_perm "Fox" hperm
  exact ⟨hperm, hopen, hfew, hsame hopen, hstanding hfew⟩

end Round

end TerminalHost
