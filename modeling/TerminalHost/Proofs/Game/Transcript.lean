import TerminalHost.Game.Scene
import TerminalHost.Proofs.Game.Rounds

/-!
# The transcript of a game

What a game shows follows from the letters that were guessed in each round.  A history
lists them, and the transcript of a history is the list of its scenes.  In such a list
every board stands for the letters echoed since its round began.
-/

namespace TerminalHost

/-! ## Secret words -/

namespace Generator

def afterPicks {α : Type} (g : Generator) (items : List α) : Nat → Generator
  | 0 => g
  | count + 1 => ((g.afterPicks items count).pick items).2

theorem exists_pick {α : Type} (g : Generator) {items : List α} (h : items ≠ []) :
    ∃ item ∈ items, (g.pick items).1 = some item := by
  have hlength : 0 < items.length := List.length_pos_iff.mpr h
  have hempty : ¬ items.isEmpty = true := by simpa using h
  have hbound : (UInt32.ofNat items.length).toNat ≤ items.length := by
    rw [UInt32.toNat_ofNat']
    exact Nat.mod_le _ _
  have hindex : (g.drawBelow (UInt32.ofNat items.length)).1.toNat < items.length := by
    by_cases hzero : UInt32.ofNat items.length = 0
    · rw [hzero]
      simpa [drawBelow] using hlength
    · have hlt := g.drawBelow_lt _ hzero
      rw [UInt32.lt_iff_toNat_lt] at hlt
      omega
  refine ⟨_, List.getElem_mem hindex, ?_⟩
  rw [pick, if_neg hempty]
  exact List.getElem?_eq_getElem hindex

end Generator

namespace Options

def secrets (options : Options) : List String :=
  if options.words.isEmpty then animals else options.words

/-- What the generator picks for a round; the first round has the number 0. -/
def pick? (options : Options) (number : Nat) : Option String :=
  (((Generator.seeded options.seed).afterPicks options.secrets number).pick
    options.secrets).1

def firstRound (options : Options) (number : Nat) : Round :=
  Round.start ((options.pick? number).getD "LION")

theorem exists_pick? (options : Options) (number : Nat) :
    ∃ word ∈ options.secrets, options.pick? number = some word := by
  apply Generator.exists_pick
  unfold secrets
  split
  · simp [animals]
  · rename_i hwords
    simpa using hwords

end Options

/-! ## Scenes -/

namespace Round

def asked : Round → List Char → List Scene
  | _, [] => []
  | r, letter :: rest =>
    .board r :: .prompt r :: .echo r letter :: (r.guess letter).2.asked rest

def last (r : Round) : List Scene :=
  match r.standing with
  | .won => [.board r, .won, .replay]
  | .lost => [.lost (some r), .replay]
  | .inProgress => [.board r, .prompt r]

/-- The scenes of a round, except for the empty screen it begins with. -/
def scenes (r : Round) (letters : List Char) : List Scene :=
  r.asked letters ++ (r.guessAll letters).last

theorem asked_append (r : Round) (left right : List Char) :
    r.asked (left ++ right) = r.asked left ++ (r.guessAll left).asked right := by
  induction left generalizing r with
  | nil => rfl
  | cons letter rest ih => simp [asked, ih]

end Round

namespace Options

/-- The scenes of several rounds, of which the first has the given number. -/
def rounds (options : Options) : Nat → List (List Char) → List Scene
  | _, [] => []
  | number, letters :: rest =>
    .opening (options.firstRound number) ::
      ((options.firstRound number).scenes letters ++ options.rounds (number + 1) rest)

theorem rounds_append (options : Options) (number : Nat) (left right : List (List Char)) :
    options.rounds number (left ++ right)
      = options.rounds number left ++ options.rounds (number + left.length) right := by
  induction left generalizing number with
  | nil => rfl
  | cons letters rest ih =>
    simp [rounds, ih, Nat.add_assoc, Nat.add_comm 1]

def told (options : Options) (scenes : List Scene) : List Bytes :=
  scenes.flatMap fun scene => (scene.screen options.view).chunks

@[simp] theorem told_append (options : Options) (left right : List Scene) :
    options.told (left ++ right) = options.told left ++ options.told right := by
  simp [told]

end Options

/-- What the letters of a game tell about it. -/
structure History where
  /-- The letters of each round that another one followed. -/
  past : List (List Char)
  /-- The letters of the latest round, if a round has begun. -/
  present : Option (List Char)
  /-- Another round was refused. -/
  refused : Bool

namespace History

def scenes (history : History) (options : Options) : List Scene :=
  .welcome :: options.rounds 0 (history.past ++ history.present.toList)

def chunks (history : History) (options : Options) : List Bytes :=
  options.told (history.scenes options)
    ++ if history.refused then View.farewell.chunks else []

/-- A history that the rules allow: each letter is guessed in a round in progress, and
nothing follows a round before it is over. -/
structure Legal (history : History) (options : Options) : Prop where
  past {number : Nat} {letters : List Char} (h : history.past[number]? = some letters) :
    (options.firstRound number).Accepts letters ∧
      ((options.firstRound number).guessAll letters).standing ≠ .inProgress
  present {letters : List Char} (h : history.present = some letters) :
    (options.firstRound history.past.length).Accepts letters
  begun (h : history.present = none) : history.past = []
  refused (h : history.refused = true) : ∃ letters, history.present = some letters ∧
    ((options.firstRound history.past.length).guessAll letters).standing ≠ .inProgress

end History

/-! ## Boards -/

namespace Scene

/-- How many rounds have begun, and the letters echoed since the latest of them did. -/
def track (tally : Nat × List Char) : Scene → Nat × List Char
  | .opening _ => (tally.1 + 1, [])
  | .echo _ letter => (tally.1, tally.2 ++ [letter])
  | _ => tally

def tally (scenes : List Scene) : Nat × List Char := scenes.foldl track (0, [])

end Scene

namespace Options

def roundOf (options : Options) (tally : Nat × List Char) : Round :=
  (options.firstRound (tally.1 - 1)).guessAll tally.2

/-- A board shows the round that the echoed letters lead to, with an attempt left, and
a letter is echoed that this round takes. -/
def Fits (options : Options) (tally : Nat × List Char) : Scene → Prop
  | .board r => r = options.roundOf tally ∧ 1 ≤ r.attempts ∧ r.attempts ≤ 6
  | .echo r letter => r = options.roundOf tally ∧ (r.guess letter).1 ≠ .rejected
  | _ => True

def AllFit (options : Options) : Nat × List Char → List Scene → Prop
  | _, [] => True
  | tally, scene :: rest =>
    options.Fits tally scene ∧ options.AllFit (scene.track tally) rest

theorem allFit_append {options : Options} {tally : Nat × List Char}
    {left right : List Scene} :
    options.AllFit tally (left ++ right)
      ↔ options.AllFit tally left ∧ options.AllFit (left.foldl Scene.track tally) right := by
  induction left generalizing tally with
  | nil => simp [AllFit]
  | cons scene rest ih =>
    rw [List.cons_append, AllFit, AllFit, ih, List.foldl_cons, and_assoc]

end Options

namespace Round

theorem foldl_track_asked (r : Round) (letters : List Char) (tally : Nat × List Char) :
    (r.asked letters).foldl Scene.track tally = (tally.1, tally.2 ++ letters) := by
  induction letters generalizing r tally with
  | nil => simp [asked]
  | cons letter rest ih => simp [asked, Scene.track, ih]

theorem foldl_track_last (r : Round) (tally : Nat × List Char) :
    r.last.foldl Scene.track tally = tally := by
  unfold last
  split <;> rfl

theorem allFit_asked {options : Options} {r : Round} {letters : List Char}
    {tally : Nat × List Char} (hr : r = options.roundOf tally) (hfair : r.Fair)
    (haccepts : r.Accepts letters) : options.AllFit tally (r.asked letters) := by
  induction letters generalizing r tally with
  | nil => trivial
  | cons letter rest ih =>
    obtain ⟨hletter, hstanding, hrest⟩ := haccepts
    have hpos := hfair.attempts_pos (by simp [hstanding])
    refine ⟨⟨hr, hpos, hfair.attempts_le⟩, trivial,
      ⟨hr, guess_ne_rejected hletter hstanding⟩, ?_⟩
    apply ih _ (hfair.guess letter) hrest
    simp [hr, Options.roundOf, Scene.track, guessAll_append]

theorem allFit_last {options : Options} {r : Round} {tally : Nat × List Char}
    (hr : r = options.roundOf tally) (hfair : r.Fair) : options.AllFit tally r.last := by
  have hboard (hstanding : r.standing ≠ .lost) : options.Fits tally (.board r) :=
    ⟨hr, hfair.attempts_pos hstanding, hfair.attempts_le⟩
  unfold last
  split <;> rename_i hstanding
  · exact ⟨hboard (by simp [hstanding]), trivial, trivial, trivial⟩
  · exact ⟨trivial, trivial, trivial⟩
  · exact ⟨hboard (by simp [hstanding]), trivial, trivial⟩

theorem allFit_scenes {options : Options} {number : Nat} {letters : List Char}
    (haccepts : (options.firstRound number).Accepts letters) :
    options.AllFit (number + 1, []) ((options.firstRound number).scenes letters) := by
  have hfair : (options.firstRound number).Fair := fair_start _
  rw [scenes, Options.allFit_append, foldl_track_asked]
  exact ⟨allFit_asked rfl hfair haccepts, allFit_last rfl (hfair.guessAll letters)⟩

end Round

theorem Options.allFit_rounds {options : Options} {number : Nat} {rounds : List (List Char)}
    (h : ∀ (later : Nat) (letters : List Char), rounds[later]? = some letters →
      (options.firstRound (number + later)).Accepts letters)
    (letters : List Char) : options.AllFit (number, letters) (options.rounds number rounds) := by
  induction rounds generalizing number letters with
  | nil => trivial
  | cons first rest ih =>
    have hfirst : (options.firstRound number).Accepts first := h 0 first rfl
    have hrest (later : Nat) (letters : List Char) (hlater : rest[later]? = some letters) :
        (options.firstRound (number + 1 + later)).Accepts letters := by
      rw [Nat.add_assoc, Nat.add_comm 1]
      exact h (later + 1) letters hlater
    refine ⟨trivial, ?_⟩
    rw [allFit_append]
    refine ⟨Round.allFit_scenes hfirst, ?_⟩
    rw [Round.scenes, List.foldl_append, Round.foldl_track_asked, Round.foldl_track_last]
    exact ih hrest _

namespace History

theorem Legal.accepts {history : History} {options : Options} (h : history.Legal options)
    {number : Nat} {letters : List Char}
    (hletters : (history.past ++ history.present.toList)[number]? = some letters) :
    (options.firstRound number).Accepts letters := by
  by_cases hpast : number < history.past.length
  · rw [List.getElem?_append_left hpast] at hletters
    exact (h.past hletters).1
  · rw [List.getElem?_append_right (Nat.le_of_not_lt hpast)] at hletters
    cases hpresent : history.present with
    | none => simp [hpresent] at hletters
    | some present =>
      rw [hpresent, Option.toList_some, List.getElem?_singleton] at hletters
      split at hletters
      · rename_i hzero
        have hnumber : number = history.past.length := by omega
        rw [Option.some.injEq] at hletters
        rw [hnumber, ← hletters]
        exact h.present hpresent
      · simp at hletters

theorem Legal.fits {history : History} {options : Options} (h : history.Legal options)
    {before after : List Scene} {scene : Scene}
    (hscenes : history.scenes options = before ++ scene :: after) :
    options.Fits (Scene.tally before) scene := by
  have hall : options.AllFit (0, []) (history.scenes options) := by
    refine ⟨trivial, Options.allFit_rounds (fun later letters hlater => ?_) []⟩
    rw [Nat.zero_add]
    exact h.accepts hlater
  rw [hscenes, Options.allFit_append] at hall
  exact hall.2.1

end History

end TerminalHost
