import TerminalHost.Proofs.Game.Rounds

/-!
# A round is a race

The rules of a round can be told without a round.  Of what a player types only the letters
count, in capitals and each where it comes first.  The word is complete with so many of
these letters, or never; the gallows are complete with so many of them, or never; whichever
comes first ends the round, and no letter counts after that.  A round that is guessed
letter by letter comes to just what these rules say.
-/

namespace TerminalHost

/-! ## The rules -/

namespace Race

/-- The letters among some characters, in capitals, each where it comes first. -/
def letters (cs : List Char) : List Char :=
  ((cs.filter Text.isLetter).map Char.toUpper).eraseDups

def misses (word letters : List Char) : Nat :=
  letters.countP fun letter => !word.contains letter

def completes (word letters : List Char) : Bool := word.all letters.contains

def exhausts (word letters : List Char) : Bool := 6 ≤ misses word letters

/-- With how many of the letters something holds for the first time, if it ever does. -/
def first? (holds : List Char → Bool) (letters : List Char) : Option Nat :=
  (List.range (letters.length + 1)).find? fun count => holds (letters.take count)

def wonAt? (word letters : List Char) : Option Nat := first? (completes word) letters

def lostAt? (word letters : List Char) : Option Nat := first? (exhausts word) letters

/-- How many of the letters count: all of them, unless the word or the gallows are
complete before. -/
def played (word letters : List Char) : Nat :=
  min letters.length
    (min ((wonAt? word letters).getD letters.length) ((lostAt? word letters).getD letters.length))

theorem first?_eq_some_iff {holds : List Char → Bool} {letters : List Char} {count : Nat} :
    first? holds letters = some count
      ↔ holds (letters.take count) = true ∧ count ≤ letters.length ∧
        ∀ fewer < count, holds (letters.take fewer) = false := by
  rw [first?, List.find?_range_eq_some, List.mem_range, Nat.lt_succ_iff]
  simp only [Bool.not_eq_true']

theorem le_of_first? {holds : List Char → Bool} {letters : List Char} {early count : Nat}
    (hearly : ∀ fewer < early, holds (letters.take fewer) = false)
    (hfirst : first? holds letters = some count) : early ≤ count := by
  apply Nat.le_of_not_lt
  intro hlt
  have hholds := (first?_eq_some_iff.mp hfirst).1
  rw [hearly count hlt] at hholds
  exact Bool.false_ne_true hholds

theorem eraseDups_snoc (cs : List Char) (c : Char) :
    (cs ++ [c]).eraseDups = if c ∈ cs then cs.eraseDups else cs.eraseDups ++ [c] := by
  by_cases hold : c ∈ cs
  · have hgone : List.removeAll [c] cs = [] := by simpa [List.removeAll] using hold
    rw [List.eraseDups_append, hgone, if_pos hold, List.eraseDups_nil, List.append_nil]
  · have hkept : List.removeAll [c] cs = [c] := by simpa [List.removeAll] using hold
    rw [List.eraseDups_append, hkept, if_neg hold]
    rfl

theorem letters_snoc_of_letter (cs : List Char) {c : Char} (hletter : Text.isLetter c = true) :
    letters (cs ++ [c])
      = if c.toUpper ∈ letters cs then letters cs else letters cs ++ [c.toUpper] := by
  have hsnoc : ((cs ++ [c]).filter Text.isLetter).map Char.toUpper
      = (cs.filter Text.isLetter).map Char.toUpper ++ [c.toUpper] := by
    rw [List.filter_append, List.map_append, List.filter_cons_of_pos hletter]
    rfl
  rw [letters, hsnoc, eraseDups_snoc]
  simp only [letters, List.mem_eraseDups]

theorem letters_snoc_of_other (cs : List Char) {c : Char} (hother : ¬ Text.isLetter c = true) :
    letters (cs ++ [c]) = letters cs := by
  rw [letters, List.filter_append, List.filter_cons_of_neg hother, List.filter_nil,
    List.append_nil, letters]

end Race

/-! ## Guessing by the rules -/

namespace Round

def tried (r : Round) : List Char → Nat
  | [] => 0
  | c :: rest =>
    (if (r.guess c).1 = .hit ∨ (r.guess c).1 = .miss then 1 else 0) + (r.guess c).2.tried rest

theorem tried_append (r : Round) (left right : List Char) :
    r.tried (left ++ right) = r.tried left + (r.guessAll left).tried right := by
  induction left generalizing r with
  | nil => simp [tried]
  | cons c rest ih => rw [List.cons_append, tried, ih, tried, guessAll_cons, Nat.add_assoc]

theorem guess_unchanged {r : Round} {c : Char}
    (h : (r.guess c).1 = .again ∨ (r.guess c).1 = .rejected) : (r.guess c).2 = r := by
  by_cases hopen : Text.isLetter c = true ∧ r.standing = .inProgress
  · rw [guess_of_open hopen.1 hopen.2] at h ⊢
    split at h
    · rw [if_pos ‹_›]
    · split at h <;> simp at h
  · rw [guess_of_closed hopen]

theorem insertLetter_perm (c : Char) (letters : List Char) :
    (insertLetter c letters).Perm (c :: letters) := by
  induction letters with
  | nil => exact List.Perm.refl _
  | cons d rest ih =>
    rw [insertLetter]
    split
    · exact List.Perm.refl _
    · exact (ih.cons d).trans (List.Perm.swap c d rest)

theorem pairwise_insertLetter {c : Char} {letters : List Char} (hnew : c ∉ letters)
    (h : letters.Pairwise (· < ·)) : (insertLetter c letters).Pairwise (· < ·) := by
  induction letters with
  | nil => exact List.pairwise_singleton _ c
  | cons d rest ih =>
    obtain ⟨hbelow, hrest⟩ := List.pairwise_cons.mp h
    rw [List.mem_cons, not_or] at hnew
    rw [insertLetter]
    split
    · rename_i hlt
      refine List.pairwise_cons.mpr ⟨fun e he => ?_, h⟩
      rcases List.mem_cons.mp he with rfl | he
      · exact hlt
      · exact Char.lt_trans hlt (hbelow e he)
    · rename_i hle
      have hlt : d < c := by
        apply Char.not_le.mp
        intro hge
        exact hnew.1 (Char.le_antisymm hge (Char.not_lt.mp hle))
      refine List.pairwise_cons.mpr ⟨fun e he => ?_, ih hnew.2 hrest⟩
      rcases (mem_insertLetter c e rest).mp he with rfl | he
      · exact hlt
      · exact hbelow e he

/-- A round on a word in which so many of the letters have counted. -/
structure Races (word letters : List Char) (count : Nat) (r : Round) : Prop where
  target : r.target.toList = word
  count_le : count ≤ letters.length
  sorted : r.guessed.Pairwise (· < ·)
  guessed : r.guessed.Perm (letters.take count)
  attempts : r.attempts + Race.misses word (letters.take count) = maxAttempts
  /-- Neither the word nor the gallows were complete before. -/
  early : ∀ fewer < count, Race.completes word (letters.take fewer) = false ∧
    Race.exhausts word (letters.take fewer) = false
  /-- Letters are left over only when the round is over. -/
  spent : count = letters.length ∨ r.standing ≠ .inProgress

variable {word letters : List Char} {count : Nat} {r : Round}

theorem races_start (target : String) :
    (start target).Races (Text.capitals target).toList [] 0 where
  target := rfl
  count_le := Nat.le_refl 0
  sorted := List.Pairwise.nil
  guessed := List.Perm.refl _
  attempts := rfl
  early _ h := absurd h (Nat.not_lt_zero _)
  spent := .inl rfl

theorem Races.all_knows (h : r.Races word letters count) :
    r.target.toList.all r.knows = Race.completes word (letters.take count) := by
  rw [h.target, Race.completes]
  apply List.all_congr rfl
  intro c
  rw [knows, Bool.eq_iff_iff, List.contains_iff_mem, List.contains_iff_mem]
  exact h.guessed.mem_iff

theorem Races.standing_eq_won_iff (h : r.Races word letters count) :
    r.standing = .won ↔ Race.completes word (letters.take count) = true := by
  rw [Round.standing_eq_won_iff, h.all_knows]

theorem Races.standing_eq_lost_iff (h : r.Races word letters count) :
    r.standing = .lost ↔ Race.completes word (letters.take count) = false ∧
      Race.exhausts word (letters.take count) = true := by
  have hattempts := h.attempts
  rw [Round.standing_eq_lost_iff, h.all_knows, Bool.not_eq_true, Race.exhausts,
    decide_eq_true_eq]
  simp only [maxAttempts] at hattempts
  apply and_congr_right
  intro _
  omega

theorem Races.standing_eq_inProgress_iff (h : r.Races word letters count) :
    r.standing = .inProgress ↔ Race.completes word (letters.take count) = false ∧
      Race.exhausts word (letters.take count) = false := by
  have hwon := h.standing_eq_won_iff
  have hlost := h.standing_eq_lost_iff
  cases hstanding : r.standing <;> simp_all

/-- A round that is over is not changed by more letters. -/
theorem Races.append (h : r.Races word letters count) (hover : r.standing ≠ .inProgress)
    (more : List Char) : r.Races word (letters ++ more) count := by
  have htake (fewer : Nat) (hle : fewer ≤ count) :
      (letters ++ more).take fewer = letters.take fewer :=
    List.take_append_of_le_length (Nat.le_trans hle h.count_le)
  refine ⟨h.target, ?_, h.sorted, ?_, ?_, ?_, .inr hover⟩
  · rw [List.length_append]
    exact Nat.le_add_right_of_le h.count_le
  · rw [htake count (Nat.le_refl count)]
    exact h.guessed
  · rw [htake count (Nat.le_refl count)]
    exact h.attempts
  · intro fewer hlt
    rw [htake fewer (Nat.le_of_lt hlt)]
    exact h.early fewer hlt

theorem Races.count_eq (h : r.Races word letters count) (hopen : r.standing = .inProgress) :
    count = letters.length :=
  h.spent.resolve_right (not_not_intro hopen)

theorem Races.knows_iff (h : r.Races word letters count) (hopen : r.standing = .inProgress)
    (c : Char) : r.knows c = true ↔ c ∈ letters := by
  rw [knows, List.contains_iff_mem, h.guessed.mem_iff, h.count_eq hopen, List.take_length]

theorem Races.count_letter (h : r.Races word letters count) (hopen : r.standing = .inProgress)
    {c : Char} (hnew : c ∉ letters) {s : Round} (htarget : s.target = r.target)
    (hguessed : s.guessed = insertLetter c r.guessed)
    (hattempts : s.attempts = if word.contains c then r.attempts else r.attempts - 1) :
    s.Races word (letters ++ [c]) (count + 1) := by
  obtain ⟨hcomplete, hexhaust⟩ := h.standing_eq_inProgress_iff.mp hopen
  have hbefore := h.attempts
  rw [h.count_eq hopen, List.take_length] at hcomplete hexhaust hbefore
  have hall : (letters ++ [c]).take (count + 1) = letters ++ [c] := by
    apply List.take_of_length_le
    rw [List.length_append, h.count_eq hopen]
    exact Nat.le_refl _
  have hperm : r.guessed.Perm letters := by
    have hperm := h.guessed
    rwa [h.count_eq hopen, List.take_length] at hperm
  refine ⟨?_, ?_, ?_, ?_, ?_, ?_, .inl ?_⟩
  · rw [htarget]
    exact h.target
  · rw [List.length_append]
    exact Nat.succ_le_succ h.count_le
  · rw [hguessed]
    exact pairwise_insertLetter (mt hperm.mem_iff.mp hnew) h.sorted
  · rw [hguessed, hall]
    have hadded := (insertLetter_perm c r.guessed).trans (hperm.cons c)
    exact hadded.trans (List.perm_append_singleton c letters).symm
  · have hmisses : Race.misses word (letters ++ [c])
        = Race.misses word letters + if word.contains c then 0 else 1 := by
      rw [Race.misses, List.countP_append, List.countP_singleton]
      cases word.contains c <;> rfl
    rw [Race.exhausts, decide_eq_false_iff_not] at hexhaust
    simp only [maxAttempts] at hbefore ⊢
    rw [hall, hmisses, hattempts]
    split
    · omega
    · omega
  · intro fewer hlt
    rw [List.take_append_of_le_length (by rw [← h.count_eq hopen]; omega)]
    rcases Nat.lt_succ_iff_lt_or_eq.mp hlt with hlt | rfl
    · exact h.early fewer hlt
    · rw [h.count_eq hopen, List.take_length]
      exact ⟨hcomplete, hexhaust⟩
  · rw [List.length_append, h.count_eq hopen]
    rfl

theorem tried_singleton (r : Round) (c : Char) :
    r.tried [c] = if (r.guess c).1 = .hit ∨ (r.guess c).1 = .miss then 1 else 0 := rfl

/-- A guess counts exactly if it is a new letter of a round that goes on. -/
theorem Races.guess {cs : List Char} (h : r.Races word (Race.letters cs) count) (c : Char) :
    (r.guess c).2.Races word (Race.letters (cs ++ [c])) (count + r.tried [c]) := by
  by_cases hletter : Text.isLetter c = true
  · rw [Race.letters_snoc_of_letter cs hletter, tried_singleton]
    by_cases hopen : r.standing = .inProgress
    · have hknows := h.knows_iff hopen c.toUpper
      by_cases hold : c.toUpper ∈ Race.letters cs
      · rw [guess_of_open hletter hopen, if_pos (hknows.mpr hold), if_pos hold]
        exact h
      · have hholds : r.holds c.toUpper = word.contains c.toUpper := by rw [holds, h.target]
        rw [guess_of_open hletter hopen, if_neg (mt hknows.mp hold), if_neg hold, hholds]
        cases hword : word.contains c.toUpper with
        | true => exact h.count_letter hopen hold rfl rfl (by rw [hword]; rfl)
        | false => exact h.count_letter hopen hold rfl rfl (by rw [hword]; rfl)
    · rw [guess_of_closed fun hboth => hopen hboth.2]
      split
      · exact h
      · exact h.append hopen [c.toUpper]
  · rw [Race.letters_snoc_of_other cs hletter, tried_singleton,
      guess_of_closed fun hboth => hletter hboth.1]
    exact h

theorem Races.guessAll {before : List Char}
    (h : r.Races word (Race.letters before) count) (cs : List Char) :
    (r.guessAll cs).Races word (Race.letters (before ++ cs)) (count + r.tried cs) := by
  induction cs generalizing r before count with
  | nil =>
    rw [List.append_nil]
    exact h
  | cons c rest ih =>
    have hsplit : before ++ c :: rest = (before ++ [c]) ++ rest := List.append_cons ..
    have htried : count + r.tried (c :: rest) = count + r.tried [c] + (r.guess c).2.tried rest := by
      rw [Nat.add_assoc]
      exact congrArg (count + ·) (r.tried_append [c] rest)
    rw [hsplit, htried, guessAll_cons]
    exact ih (h.guess c)

theorem races_guessAll (target : String) (cs : List Char) :
    ((start target).guessAll cs).Races (Text.capitals target).toList (Race.letters cs)
      ((start target).tried cs) := by
  have h : ((start target).guessAll cs).Races (Text.capitals target).toList
      (Race.letters ([] ++ cs)) (0 + (start target).tried cs) := (races_start target).guessAll cs
  rwa [List.nil_append, Nat.zero_add] at h

/-- A letter that completes the gallows is not in the word, so it does not complete the
word. -/
theorem Races.completes_of_exhausts (h : r.Races word letters count)
    (hexhaust : Race.exhausts word (letters.take count) = true) :
    Race.completes word (letters.take count) = false := by
  cases count with
  | zero => simp [Race.exhausts, Race.misses] at hexhaust
  | succ fewer =>
    have hlt : fewer < letters.length := h.count_le
    obtain ⟨hcomplete, hfewer⟩ := h.early fewer (Nat.lt_succ_self fewer)
    rw [← List.take_append_getElem hlt] at hexhaust ⊢
    generalize letters[fewer] = letter at hexhaust ⊢
    have hmissed : letter ∉ word := by
      intro hmem
      have hsame : Race.misses word (letters.take fewer ++ [letter])
          = Race.misses word (letters.take fewer) := by
        simp [Race.misses, hmem]
      rw [Race.exhausts, hsame] at hexhaust
      rw [Race.exhausts, hexhaust] at hfewer
      exact Bool.false_ne_true hfewer.symm
    rw [← hcomplete, Race.completes, Race.completes, Bool.eq_iff_iff, List.all_eq_true,
      List.all_eq_true]
    apply forall₂_congr
    intro c hc
    have hne : c ≠ letter := fun heq => hmissed (heq ▸ hc)
    simp [hne]

/-! ## Who wins the race -/

theorem Races.wonAt?_eq_iff (h : r.Races word letters count) :
    Race.wonAt? word letters = some count ↔ r.standing = .won := by
  rw [h.standing_eq_won_iff, Race.wonAt?, Race.first?_eq_some_iff]
  exact ⟨And.left, fun hcomplete => ⟨hcomplete, h.count_le, fun fewer hlt => (h.early fewer hlt).1⟩⟩

theorem Races.lostAt?_eq_iff (h : r.Races word letters count) :
    Race.lostAt? word letters = some count ↔ r.standing = .lost := by
  rw [h.standing_eq_lost_iff, Race.lostAt?, Race.first?_eq_some_iff]
  exact ⟨fun hfirst => ⟨h.completes_of_exhausts hfirst.1, hfirst.1⟩,
    fun hboth => ⟨hboth.2, h.count_le, fun fewer hlt => (h.early fewer hlt).2⟩⟩

theorem Races.le_wonAt? (h : r.Races word letters count) {won : Nat}
    (hwon : Race.wonAt? word letters = some won) : count ≤ won :=
  Race.le_of_first? (fun fewer hlt => (h.early fewer hlt).1) hwon

theorem Races.le_lostAt? (h : r.Races word letters count) {lost : Nat}
    (hlost : Race.lostAt? word letters = some lost) : count ≤ lost :=
  Race.le_of_first? (fun fewer hlt => (h.early fewer hlt).2) hlost

/-- Nothing happens after the letters that have counted, if the round goes on. -/
theorem Races.first?_of_inProgress (h : r.Races word letters count)
    (hopen : r.standing = .inProgress) :
    Race.wonAt? word letters = none ∧ Race.lostAt? word letters = none := by
  have hcount := h.count_eq hopen
  constructor
  · cases hwon : Race.wonAt? word letters with
    | none => rfl
    | some won =>
      have hle := (Race.first?_eq_some_iff.mp hwon).2.1
      have heq : won = count := Nat.le_antisymm (hcount ▸ hle) (h.le_wonAt? hwon)
      rw [heq, h.wonAt?_eq_iff, hopen] at hwon
      exact absurd hwon (by decide)
  · cases hlost : Race.lostAt? word letters with
    | none => rfl
    | some lost =>
      have hle := (Race.first?_eq_some_iff.mp hlost).2.1
      have heq : lost = count := Nat.le_antisymm (hcount ▸ hle) (h.le_lostAt? hlost)
      rw [heq, h.lostAt?_eq_iff, hopen] at hlost
      exact absurd hlost (by decide)

theorem Races.standing_eq_won_iff_first (h : r.Races word letters count) :
    r.standing = .won ↔ ∃ won, Race.wonAt? word letters = some won ∧
      ∀ lost, Race.lostAt? word letters = some lost → won < lost := by
  constructor
  · intro hstanding
    refine ⟨count, h.wonAt?_eq_iff.mpr hstanding, fun lost hlost => ?_⟩
    apply Nat.lt_of_le_of_ne (h.le_lostAt? hlost)
    rintro rfl
    rw [h.lostAt?_eq_iff, hstanding] at hlost
    exact absurd hlost (by decide)
  · rintro ⟨won, hwon, hfirst⟩
    cases hstanding : r.standing with
    | won => rfl
    | lost =>
      have hlt := hfirst count (h.lostAt?_eq_iff.mpr hstanding)
      exact absurd (h.le_wonAt? hwon) (Nat.not_le.mpr hlt)
    | inProgress =>
      rw [(h.first?_of_inProgress hstanding).1] at hwon
      cases hwon

theorem Races.standing_eq_lost_iff_first (h : r.Races word letters count) :
    r.standing = .lost ↔ ∃ lost, Race.lostAt? word letters = some lost ∧
      ∀ won, Race.wonAt? word letters = some won → lost < won := by
  constructor
  · intro hstanding
    refine ⟨count, h.lostAt?_eq_iff.mpr hstanding, fun won hwon => ?_⟩
    apply Nat.lt_of_le_of_ne (h.le_wonAt? hwon)
    rintro rfl
    rw [h.wonAt?_eq_iff, hstanding] at hwon
    exact absurd hwon (by decide)
  · rintro ⟨lost, hlost, hfirst⟩
    cases hstanding : r.standing with
    | won =>
      have hlt := hfirst count (h.wonAt?_eq_iff.mpr hstanding)
      exact absurd (h.le_lostAt? hlost) (Nat.not_le.mpr hlt)
    | lost => rfl
    | inProgress =>
      rw [(h.first?_of_inProgress hstanding).2] at hlost
      cases hlost

theorem Races.standing_eq_inProgress_iff_first (h : r.Races word letters count) :
    r.standing = .inProgress ↔
      Race.wonAt? word letters = none ∧ Race.lostAt? word letters = none := by
  refine ⟨h.first?_of_inProgress, fun ⟨hwon, hlost⟩ => ?_⟩
  cases hstanding : r.standing with
  | won =>
    rw [h.wonAt?_eq_iff.mpr hstanding] at hwon
    cases hwon
  | lost =>
    rw [h.lostAt?_eq_iff.mpr hstanding] at hlost
    cases hlost
  | inProgress => rfl

/-- The letters that have counted are those the rules count. -/
theorem Races.count_eq_played (h : r.Races word letters count) :
    count = Race.played word letters := by
  have hwon : count ≤ (Race.wonAt? word letters).getD letters.length := by
    cases hat : Race.wonAt? word letters with
    | none => exact h.count_le
    | some won => exact h.le_wonAt? hat
  have hlost : count ≤ (Race.lostAt? word letters).getD letters.length := by
    cases hat : Race.lostAt? word letters with
    | none => exact h.count_le
    | some lost => exact h.le_lostAt? hat
  have hle := h.count_le
  unfold Race.played
  cases hstanding : r.standing with
  | won =>
    rw [h.wonAt?_eq_iff.mpr hstanding, Option.getD_some]
    omega
  | lost =>
    rw [h.lostAt?_eq_iff.mpr hstanding, Option.getD_some]
    omega
  | inProgress =>
    have hcount := h.count_eq hstanding
    omega

structure Obeys (target : String) (cs : List Char) (word letters : List Char) (r : Round) :
    Prop where
  /-- The word is complete before the gallows. -/
  won : r.standing = .won ↔
    ∃ won, Race.wonAt? word letters = some won ∧
      ∀ lost, Race.lostAt? word letters = some lost → won < lost
  /-- The gallows are complete before the word. -/
  lost : r.standing = .lost ↔
    ∃ lost, Race.lostAt? word letters = some lost ∧
      ∀ won, Race.wonAt? word letters = some won → lost < won
  inProgress : r.standing = .inProgress ↔
    Race.wonAt? word letters = none ∧ Race.lostAt? word letters = none
  /-- The letters that count are the guessed ones, in alphabetical order. -/
  guessed : r.guessed.Perm (letters.take (Race.played word letters))
  sorted : r.guessed.Pairwise (· < ·)
  display : r.guessedDisplay.toList = r.guessed.intersperse ' '
  misses_le : Race.misses word (letters.take (Race.played word letters)) ≤ 6
  attempts : r.attempts = 6 - Race.misses word (letters.take (Race.played word letters))
  stage : r.stage = Race.misses word (letters.take (Race.played word letters))
  /-- So many guesses were new letters. -/
  tried : (start target).tried cs = Race.played word letters
  /-- No other guess changed anything. -/
  unchanged : ∀ before c after, cs = before ++ c :: after →
    (((start target).guessAll before).guess c).1 ≠ .hit →
    (((start target).guessAll before).guess c).1 ≠ .miss →
    (((start target).guessAll before).guess c).2 = (start target).guessAll before

/-- **A round obeys its rules.**  Whatever the target and whatever is guessed, the round is
won if the letters complete the word before six of them are not in it, lost if six of them
are not in it before, and goes on if neither has happened.  The guessed letters, the
attempts and the gallows are those of the letters that count, and nothing else that is
guessed changes the round. -/
theorem obeys_guessAll (target : String) (cs : List Char) :
    ((start target).guessAll cs).Obeys target cs (Text.capitals target).toList
      (Race.letters cs) := by
  have h := races_guessAll target cs
  have hplayed := h.count_eq_played
  have hattempts := h.attempts
  have hguessed := h.guessed
  rw [hplayed] at hattempts hguessed
  simp only [maxAttempts] at hattempts
  refine ⟨h.standing_eq_won_iff_first, h.standing_eq_lost_iff_first,
    h.standing_eq_inProgress_iff_first, hguessed, h.sorted, ?_, by omega, by omega, ?_,
    hplayed, ?_⟩
  · rw [guessedDisplay, String.toList_ofList]
  · rw [stage, maxAttempts]
    omega
  · intro before c after _ hhit hmiss
    apply guess_unchanged
    cases hguess : (((start target).guessAll before).guess c).1 <;> simp_all

end Round

end TerminalHost
