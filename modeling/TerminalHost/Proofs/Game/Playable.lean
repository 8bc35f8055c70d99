import Mathlib
import TerminalHost.Proofs.Game.Order
import TerminalHost.Proofs.Text.Blank
import TerminalHost.Proofs.Text.Letters

/-!
# Words that can be won

A player types letters, so a target can be won exactly if it is made of letters: its own
letters win a round that goes on, and any other character of it can never be guessed.  A
word is accepted exactly if it is such a target, once the white space around it is gone.
-/

namespace TerminalHost

/-! ## Capitals of an inner part -/

namespace Text

theorem isLetter_toUpper_eq (c : Char) : isLetter c.toUpper = isLetter c :=
  Char.isAlpha_toUpper_eq_isAlpha c

theorem capitals_capitals (text : String) : capitals (capitals text) = capitals text := by
  apply String.toList_injective
  rw [toList_capitals, toList_capitals, List.map_map]
  apply List.map_congr_left
  intro c _
  exact Char.toUpper_toUpper_eq_toUpper c

end Text

theorem normalizeWord?_self {word accepted : String}
    (h : normalizeWord? word = some accepted) : normalizeWord? accepted = some accepted := by
  obtain ⟨hne, hletters, rfl⟩ := normalizeWord?_eq_some_iff.mp h
  apply normalizeWord?_eq_some_iff.mpr
  rw [hletters.capitals.trim_eq]
  exact ⟨mt Text.capitals_eq_empty_iff.mp hne, hletters.capitals, Text.capitals_capitals _⟩

/-! ## Winning a round -/

namespace Race

/-- Letters of the word cost nothing. -/
theorem misses_append_of_hits {word more : List Char} (cs : List Char)
    (h : ∀ c ∈ more, c.toUpper ∈ word) :
    misses word (letters (cs ++ more)) = misses word (letters cs) := by
  have hnone : strays word more = [] := by
    apply List.filter_eq_nil_iff.mpr
    intro c hc
    rw [List.contains_iff_mem.mpr (h c hc)]
    decide
  have hstrays : strays word (cs ++ more) = strays word cs := by
    rw [strays, List.filter_append]
    exact (congrArg (strays word cs ++ ·) hnone).trans (List.append_nil _)
  rw [← misses_strays, hstrays, misses_strays]

end Race

namespace Round

def Winnable (target : String) : Prop :=
  ∃ cs : List Char, ((start target).guessAll cs).standing = .won

variable {target : String}

/-- The letters of the target win a round on it that goes on. -/
theorem standing_guessAll_target (hletters : Text.IsSpelled target)
    {cs : List Char}
    (hfew : Race.misses (Text.capitals target).toList (Race.letters cs) < 6) :
    ((start target).guessAll (cs ++ target.toList)).standing = .won := by
  have hword : ∀ c ∈ target.toList, c.toUpper ∈ (Text.capitals target).toList := by
    intro c hc
    rw [Text.toList_capitals]
    exact List.mem_map_of_mem hc
  have hcomplete : Race.completes (Text.capitals target).toList
      (Race.letters (cs ++ target.toList)) = true := by
    rw [Race.completes_eq_true_iff, Text.toList_capitals]
    intro letter hletter
    obtain ⟨c, hc, rfl⟩ := List.mem_map.mp hletter
    apply Race.mem_letters_iff.mpr
    exact ⟨c, List.mem_append_right cs hc, hletters c hc, rfl⟩
  have hraces := races_guessAll target (cs ++ target.toList)
  rw [← Race.misses_append_of_hits cs hword] at hfew
  rw [hraces.standing_eq_of_misses_lt hfew, if_pos hcomplete]

theorem winnable_iff : Winnable target ↔ Text.IsSpelled target := by
  constructor
  · rintro ⟨cs, hwon⟩ c hc
    have hraces := races_guessAll target cs
    have hcomplete := Race.completes_of_take (hraces.standing_eq_won_iff.mp hwon)
    rw [Race.completes_eq_true_iff, Text.toList_capitals] at hcomplete
    have hguessed := hcomplete c.toUpper (List.mem_map_of_mem hc)
    obtain ⟨d, -, hletter, hsame⟩ := Race.mem_letters_iff.mp hguessed
    rw [← Text.isLetter_toUpper_eq, ← hsame, Text.isLetter_toUpper_eq]
    exact hletter
  · intro hletters
    refine ⟨[] ++ target.toList, standing_guessAll_target hletters ?_⟩
    exact Nat.succ_pos 5

/-- A round on a target of letters that goes on has a letter left to hit. -/
theorem exists_hit (hletters : Text.IsSpelled target) {cs : List Char}
    (hopen : ((start target).guessAll cs).standing = .inProgress) :
    ∃ letter ∈ (Text.capitals target).toList, Text.isLetter letter = true ∧
      ((start target).guessAll cs).knows letter = false ∧
      (((start target).guessAll cs).guess letter).1 = .hit := by
  have hraces := races_guessAll target cs
  have hunknown : ((start target).guessAll cs).target.toList.all
      ((start target).guessAll cs).knows = false := by
    rw [← Bool.not_eq_true, ← standing_eq_won_iff, hopen]
    decide
  obtain ⟨letter, hmem, hknows⟩ := List.all_eq_false.mp hunknown
  rw [hraces.target] at hmem
  rw [Bool.not_eq_true] at hknows
  have hcapital := hmem
  rw [Text.toList_capitals] at hcapital
  obtain ⟨c, hc, rfl⟩ := List.mem_map.mp hcapital
  have hletter : Text.isLetter c.toUpper = true := by
    rw [Text.isLetter_toUpper_eq]
    exact hletters c hc
  refine ⟨c.toUpper, hmem, hletter, hknows, ?_⟩
  have hholds : ((start target).guessAll cs).holds c.toUpper = true := by
    rw [holds, hraces.target]
    exact List.contains_iff_mem.mpr hmem
  rw [guess_of_open hletter hopen, Char.toUpper_toUpper_eq_toUpper, hknows,
    if_neg Bool.false_ne_true, if_pos hholds]

/-- A round on a target of letters that goes on can still be won. -/
theorem exists_win (hletters : Text.IsSpelled target) {cs : List Char}
    (hopen : ((start target).guessAll cs).standing = .inProgress) :
    ∃ more, (((start target).guessAll cs).guessAll more).standing = .won := by
  have hexhaust := ((races_guessAll target cs).standing_eq_inProgress_iff_all.mp hopen).2
  rw [Race.exhausts, decide_eq_false_iff_not, Nat.not_le] at hexhaust
  refine ⟨target.toList, ?_⟩
  rw [← guessAll_append]
  exact standing_guessAll_target hletters hexhaust

end Round

/-- **Accepted are the words that can be won.**  A target can be won exactly if it is made
of letters.  A word is accepted exactly if its inner part is not empty and can be won.
What it is accepted as is accepted as itself and is a target as it stands, and a round on
it that goes on has a letter left to hit and can still be won. -/
theorem normalizeWord?_accepts :
    (∀ target, Round.Winnable target ↔ Text.IsSpelled target) ∧
    ∀ word, Text.Pads word (Text.trim word) ∧
      ((normalizeWord? word).isSome ↔
        Text.trim word ≠ "" ∧ Round.Winnable (Text.trim word)) ∧
      ∀ accepted, normalizeWord? word = some accepted →
        normalizeWord? accepted = some accepted ∧
        (Round.start accepted).target = accepted ∧
        ∀ cs, ((Round.start accepted).guessAll cs).standing = .inProgress →
          (∃ letter, Text.isLetter letter = true ∧
            ((Round.start accepted).guessAll cs).knows letter = false ∧
            (((Round.start accepted).guessAll cs).guess letter).1 = .hit) ∧
          ∃ more, (((Round.start accepted).guessAll cs).guessAll more).standing = .won := by
  refine ⟨fun target => Round.winnable_iff, fun word => ⟨Text.pads_trim word, ?_, ?_⟩⟩
  · rw [Option.isSome_iff_exists, Round.winnable_iff]
    constructor
    · rintro ⟨accepted, haccepted⟩
      have hfacts := normalizeWord?_eq_some_iff.mp haccepted
      exact ⟨hfacts.1, hfacts.2.1⟩
    · rintro ⟨hne, hletters⟩
      exact ⟨_, normalizeWord?_eq_some_iff.mpr ⟨hne, hletters, rfl⟩⟩
  · intro accepted haccepted
    obtain ⟨hne, hletters, rfl⟩ := normalizeWord?_eq_some_iff.mp haccepted
    have hspelled := hletters.capitals
    refine ⟨normalizeWord?_self haccepted, Text.capitals_capitals _, ?_⟩
    intro cs hopen
    obtain ⟨letter, -, hletter, hknows, hhit⟩ := Round.exists_hit hspelled hopen
    exact ⟨⟨letter, hletter, hknows, hhit⟩, Round.exists_win hspelled hopen⟩

theorem normalizeWord?_accepts_lynx :
    normalizeWord? "\u00a0Lynx\u2003" = some "LYNX" ∧
    ((Round.start "LYNX").guessAll ['x', 'q']).standing = .inProgress ∧
    normalizeWord? "LYNX" = some "LYNX" ∧ (Round.start "LYNX").target = "LYNX" ∧
    (∃ letter, Text.isLetter letter = true ∧
      ((Round.start "LYNX").guessAll ['x', 'q']).knows letter = false ∧
      (((Round.start "LYNX").guessAll ['x', 'q']).guess letter).1 = .hit) ∧
    ∃ more, (((Round.start "LYNX").guessAll ['x', 'q']).guessAll more).standing = .won := by
  have haccepted : normalizeWord? "\u00a0Lynx\u2003" = some "LYNX" := by decide +kernel
  have hopen : ((Round.start "LYNX").guessAll ['x', 'q']).standing = .inProgress := by
    decide +kernel
  obtain ⟨-, -, hword⟩ := normalizeWord?_accepts.2 "\u00a0Lynx\u2003"
  obtain ⟨hagain, htarget, hplay⟩ := hword "LYNX" haccepted
  obtain ⟨hhit, hwin⟩ := hplay ['x', 'q'] hopen
  exact ⟨haccepted, hopen, hagain, htarget, hhit, hwin⟩

end TerminalHost
