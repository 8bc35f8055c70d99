import Mathlib
import TerminalHost.Proofs.Game.Replay
import TerminalHost.Proofs.Session.Calls

/-!
# The secret of a round

What a player sees of a word is where the guessed letters stand in it.  So two words of
one length cannot be told apart as long as every guessed letter stands at the same places
in both of them: the boards, the answers to the guesses and the end of the round are the
same.  Only the last line of the lost screen tells which word it was.

Two sessions on the two words are followed side by side.  They use one line in the same
way until they send that line, and from there on nothing is said about them.
-/

namespace TerminalHost

/-! ## Words -/

namespace Text

/-- A letter stands at the same places of two words. -/
def SamePlaces (letter : Char) (u v : String) : Prop :=
  ∀ place : Nat, u.toList[place]? = some letter ↔ v.toList[place]? = some letter

instance (letter : Char) (u v : String) : Decidable (SamePlaces letter u v) :=
  decidable_of_iff (∀ place < u.length + v.length,
      u.toList[place]? = some letter ↔ v.toList[place]? = some letter) (by
    refine ⟨fun h place => ?_, fun h place _ => h place⟩
    by_cases hplace : place < u.length + v.length
    · exact h place hplace
    · have hu : u.toList.length ≤ place := by
        rw [String.length_toList]
        omega
      have hv : v.toList.length ≤ place := by
        rw [String.length_toList]
        omega
      rw [List.getElem?_eq_none hu, List.getElem?_eq_none hv])

theorem SamePlaces.mem_iff {letter : Char} {u v : String} (h : SamePlaces letter u v) :
    letter ∈ u.toList ↔ letter ∈ v.toList := by
  simp only [List.mem_iff_getElem?]
  exact exists_congr h

theorem capitals_of_isUpper {word : String} (h : ∀ c ∈ word.toList, c.isUpper = true) :
    capitals word = word := by
  apply String.toList_injective
  rw [toList_capitals]
  calc word.toList.map Char.toUpper
      = word.toList.map id := by
        apply List.map_congr_left
        intro c hc
        exact Char.toUpper_eq_of_not_isLower (Char.not_isLower_of_isUpper (h c hc))
    _ = word.toList := List.map_id _

structure Rivals (u v : String) : Prop where
  ne : u ≠ v
  length : u.length = v.length
  upper_left : ∀ c ∈ u.toList, c.isUpper = true
  upper_right : ∀ c ∈ v.toList, c.isUpper = true

end Text

theorem Keys.toUpper_of_firstLetter? {heard : Bytes} {letter : Char}
    (h : firstLetter? heard = some letter) : letter.toUpper = letter := by
  obtain ⟨octet, -, hoctet⟩ := List.exists_of_findSome?_eq_some h
  simp only [letter?, Option.ite_none_right_eq_some, Option.some.injEq] at hoctet
  rw [← hoctet.2]
  exact Char.toUpper_toUpper_eq_toUpper _

/-! ## Rounds on two words -/

namespace Round

/-- Rounds on the words `u` and `v` in which every letter guessed so far stands at the
same places of both. -/
structure Veils (u v : String) (r s : Round) : Prop where
  target_left : r.target = u
  target_right : s.target = v
  guessed : s.guessed = r.guessed
  attempts : s.attempts = r.attempts
  same : ∀ c ∈ r.guessed, Text.SamePlaces c u v

variable {u v : String} {r s : Round}

theorem Veils.knows (h : Veils u v r s) (c : Char) : s.knows c = r.knows c := by
  rw [Round.knows, Round.knows, h.guessed]

/-- At each place, the two words have the same character or unknown ones. -/
theorem Veils.eq_or_unknown (h : Veils u v r s) {place : Nat} {c d : Char}
    (hc : u.toList[place]? = some c) (hd : v.toList[place]? = some d) :
    c = d ∨ r.knows c = false ∧ r.knows d = false := by
  by_cases hknown : c ∈ r.guessed
  · have hsame := (h.same c hknown place).mp hc
    rw [hd] at hsame
    exact .inl (Option.some.inj hsame).symm
  · by_cases hknown' : d ∈ r.guessed
    · have hsame := (h.same d hknown' place).mpr hd
      rw [hc] at hsame
      exact .inl (Option.some.inj hsame)
    · right
      simp [Round.knows, hknown, hknown']

theorem Veils.masked (h : Veils u v r s) (hrivals : Text.Rivals u v) :
    s.masked = r.masked := by
  have hshown : v.toList.map (fun c => [if s.knows c then c else '_', ' '])
      = u.toList.map (fun c => [if r.knows c then c else '_', ' ']) := by
    apply List.ext_getElem
    · simp only [List.length_map]
      exact hrivals.length.symm
    · intro place hv hu
      simp only [List.length_map] at hv hu
      rw [List.getElem_map, List.getElem_map, h.knows]
      rcases h.eq_or_unknown (List.getElem?_eq_getElem hu) (List.getElem?_eq_getElem hv)
        with heq | ⟨hc, hd⟩
      · rw [heq]
      · rw [hc, hd]
        simp
  rw [Round.masked, Round.masked, h.target_left, h.target_right, List.flatMap_def,
    List.flatMap_def, hshown]

/-- A word is not complete as long as another one looks the same. -/
theorem Veils.standing (h : Veils u v r s) (hrivals : Text.Rivals u v) :
    s.standing = r.standing ∧ r.standing ≠ .won := by
  have hopen (word : String) (hword : word = u ∨ word = v) :
      word.toList.all r.knows = false := by
    rw [Bool.eq_false_iff]
    intro hall
    rw [List.all_eq_true] at hall
    apply hrivals.ne
    apply String.toList_injective
    apply List.ext_getElem hrivals.length
    intro place hu hv
    rcases h.eq_or_unknown (List.getElem?_eq_getElem hu) (List.getElem?_eq_getElem hv)
      with heq | ⟨hc, hd⟩
    · exact heq
    · rcases hword with rfl | rfl
      · rw [hall _ (List.getElem_mem hu)] at hc
        cases hc
      · rw [hall _ (List.getElem_mem hv)] at hd
        cases hd
  have hknows : s.knows = r.knows := funext h.knows
  have hleft := hopen u (.inl rfl)
  have hright := hopen v (.inr rfl)
  constructor
  · simp only [Round.standing, h.target_left, h.target_right, hknows, hleft, hright,
      h.attempts]
  · rw [ne_eq, standing_eq_won_iff, h.target_left, hleft]
    simp

/-- A guess that tells nothing is answered in the same way. -/
theorem Veils.guess (h : Veils u v r s) (hrivals : Text.Rivals u v) {letter : Char}
    (hletter : letter.toUpper = letter) (hsame : Text.SamePlaces letter u v) :
    (s.guess letter).1 = (r.guess letter).1 ∧
      Veils u v (r.guess letter).2 (s.guess letter).2 := by
  have hstanding := (h.standing hrivals).1
  by_cases hopen : Text.isLetter letter = true ∧ r.standing = .inProgress
  · have hholds : s.holds letter = r.holds letter := by
      rw [Round.holds, Round.holds, h.target_left, h.target_right, Bool.eq_iff_iff,
        List.contains_iff_mem, List.contains_iff_mem]
      exact hsame.mem_iff.symm
    have hinsert (c : Char) (hc : c ∈ insertLetter letter r.guessed) :
        Text.SamePlaces c u v := by
      rcases (mem_insertLetter letter c r.guessed).mp hc with rfl | hmem
      · exact hsame
      · exact h.same c hmem
    rw [guess_of_open hopen.1 hopen.2, guess_of_open hopen.1 (hstanding.trans hopen.2),
      hletter, h.knows, hholds, h.guessed, h.attempts]
    split
    · exact ⟨rfl, h⟩
    · split
      · exact ⟨rfl, h.target_left, h.target_right, rfl, rfl, hinsert⟩
      · exact ⟨rfl, h.target_left, h.target_right, rfl, rfl, hinsert⟩
  · have hclosed : ¬ (Text.isLetter letter = true ∧ s.standing = .inProgress) := by
      rwa [hstanding]
    rw [guess_of_closed hopen, guess_of_closed hclosed]
    exact ⟨rfl, h⟩

theorem veils_start (hrivals : Text.Rivals u v) : Veils u v (start u) (start v) where
  target_left := Text.capitals_of_isUpper hrivals.upper_left
  target_right := Text.capitals_of_isUpper hrivals.upper_right
  guessed := rfl
  attempts := rfl
  same c hc := by simp [start] at hc

end Round

/-! ## The first round in the journal -/

namespace Entry

def endsRound : Entry → Bool
  | phaseChanged .roundActive _ => true
  | _ => false

def guess? : Entry → Option (Char × Guess × Nat)
  | guessed letter guess attempts => some (letter, guess, attempts)
  | _ => none

/-- The guesses of the first round, with their answers and the attempts that they left. -/
def firstRound (journal : List Entry) : List (Char × Guess × Nat) :=
  (journal.takeWhile fun entry => !entry.endsRound).filterMap guess?

/-- The entry without the secret word. -/
def veiled : Entry → Entry
  | roundStarted _ => roundStarted ""
  | entry => entry

@[simp] theorem endsRound_veiled (entry : Entry) : entry.veiled.endsRound = entry.endsRound := by
  cases entry <;> rfl

@[simp] theorem guess?_veiled (entry : Entry) : entry.veiled.guess? = entry.guess? := by
  cases entry <;> rfl

theorem firstRound_veiled (journal : List Entry) :
    firstRound (journal.map veiled) = firstRound journal := by
  simp only [firstRound, List.takeWhile_map, List.filterMap_map, Function.comp_def,
    endsRound_veiled, guess?_veiled]

theorem firstRound_append_of_open {journal : List Entry}
    (h : ∀ entry ∈ journal, entry.endsRound = false) (later : List Entry) :
    firstRound (journal ++ later) = journal.filterMap guess? ++ firstRound later := by
  rw [firstRound, List.takeWhile_append_of_pos (by simpa using h), List.filterMap_append]
  rfl

/-- What is noted after the end of the first round does not belong to it. -/
theorem firstRound_append_of_mem {journal : List Entry} {last : Entry}
    (hmem : last ∈ journal) (hlast : last.endsRound = true) (later : List Entry) :
    firstRound (journal ++ later) = firstRound journal := by
  obtain ⟨before, after, rfl⟩ := List.append_of_mem hmem
  simp [firstRound, List.takeWhile_append, hlast]

theorem firstRound_subset (journal later : List Entry) :
    firstRound journal ⊆ firstRound (journal ++ later) := by
  by_cases hopen : ∀ entry ∈ journal, entry.endsRound = false
  · rw [firstRound_append_of_open hopen]
    have hall := firstRound_append_of_open hopen []
    rw [List.append_nil] at hall
    rw [hall]
    simp [firstRound]
  · simp only [not_forall, Bool.not_eq_false] at hopen
    obtain ⟨last, hmem, hlast⟩ := hopen
    rw [firstRound_append_of_mem hmem hlast]
    exact List.Subset.refl _

/-- The first round of a journal tells nothing about which of two words is guessed. -/
def Harmless (u v : String) (journal : List Entry) : Prop :=
  ∀ told ∈ firstRound journal, Text.SamePlaces told.1 u v

end Entry

/-! ## Scenes and games on two words -/

def View.verdict (word : String) : Script := Script.line ("Game Over! The word was: " ++ word)

namespace Scene

/-- The same scene of a first round, on two words that look the same in it. -/
inductive Veils (u v : String) : Scene → Scene → Prop where
  | welcome : Veils u v .welcome .welcome
  | opening {r s : Round} (h : r.Veils u v s) : Veils u v (.opening r) (.opening s)
  | board {r s : Round} (h : r.Veils u v s) : Veils u v (.board r) (.board s)
  | prompt {r s : Round} (h : r.Veils u v s) : Veils u v (.prompt r) (.prompt s)
  | guessing {r s : Round} (h : r.Veils u v s) : Veils u v (.guessing r) (.guessing s)
  | echo {r s : Round} (h : r.Veils u v s) {letter : Char}
      (hletter : letter.toUpper = letter) : Veils u v (.echo r letter) (.echo s letter)
  | lost {r s : Round} (h : r.Veils u v s) : Veils u v (.lost (some r)) (.lost (some s))

variable {u v : String} {s t : Scene}

theorem Veils.phase (h : Veils u v s t) : t.phase = s.phase := by
  cases h <;> rfl

theorem Veils.phase_ne_won (h : Veils u v s t) : s.phase ≠ .roundWon := by
  cases h <;> simp [Scene.phase]

theorem Veils.arriving (h : Veils u v s t) :
    (Game.arriving t).map Entry.veiled = (Game.arriving s).map Entry.veiled := by
  cases h <;> rfl

theorem Veils.leaving (h : Veils u v s t) (hrivals : Text.Rivals u v)
    (hsame : ∀ {r : Round} {letter : Char}, s = .echo r letter → Text.SamePlaces letter u v) :
    Game.leaving t = Game.leaving s := by
  cases h with
  | echo h hletter =>
    obtain ⟨hanswer, hround⟩ := h.guess hrivals hletter (hsame rfl)
    simp only [Game.leaving, hanswer, hround.attempts]
  | _ => rfl

/-- Until the round is lost, both words are drawn alike. -/
theorem Veils.screen (h : Veils u v s t) (hrivals : Text.Rivals u v)
    (hphase : s.phase ≠ .roundLost) (view : View) : t.screen view = s.screen view := by
  cases h with
  | @board r s h =>
    have hstage : s.stage = r.stage := by rw [Round.stage, Round.stage, h.attempts]
    have hdisplay : s.guessedDisplay = r.guessedDisplay := by
      rw [Round.guessedDisplay, Round.guessedDisplay, h.guessed]
    simp only [Scene.screen, View.board, hstage, hdisplay, h.masked hrivals, h.attempts]
  | lost h => exact absurd rfl hphase
  | _ => rfl

/-- The lost screen is the same up to its last line. -/
theorem Veils.screen_lost (h : Veils u v s t) (hphase : s.phase = .roundLost) (view : View) :
    ∃ shared, s.screen view = shared ++ View.verdict u ∧
      t.screen view = shared ++ View.verdict v := by
  cases h with
  | lost h =>
    refine ⟨View.clear ++ view.textsFrom View.gallowsRow (View.gallows Round.maxAttempts)
      ++ Script.moveTo 20 view.margin, ?_, ?_⟩
    · simp only [Scene.screen, View.lost, View.lineAt, View.verdict, h.target_left,
        List.append_assoc]
    · simp only [Scene.screen, View.lost, View.lineAt, View.verdict, h.target_right,
        List.append_assoc]
  | _ => cases hphase

end Scene

namespace Game

structure Veils (u v : String) (g f : Game) : Prop where
  words_left : g.words = [u]
  words_right : f.words = [v]
  view : f.view = g.view
  won : f.won = g.won
  lost : f.lost = g.lost
  scene : g.scene.Veils u v f.scene

def Follow (u v : String) (g : Game) (next next' : Game) : Prop :=
  Entry.Harmless u v (noted g next) → Veils u v next next'

variable {u v : String} {g f next next' : Game}

theorem Veils.phase (h : Veils u v g f) : f.phase = g.phase := h.scene.phase

theorem Veils.enter (h : Veils u v g f) {scene scene' : Scene} (hscene : scene.Veils u v scene') :
    Veils u v (g.enter scene) (f.enter scene') := by
  obtain ⟨hwords, hwords', hview, hwon, hlost, -⟩ := h
  cases hscene with
  | lost h => exact ⟨hwords, hwords', hview, hwon, congrArg (· + 1) hlost, .lost h⟩
  | welcome => exact ⟨hwords, hwords', hview, hwon, hlost, .welcome⟩
  | opening h => exact ⟨hwords, hwords', hview, hwon, hlost, .opening h⟩
  | board h => exact ⟨hwords, hwords', hview, hwon, hlost, .board h⟩
  | prompt h => exact ⟨hwords, hwords', hview, hwon, hlost, .prompt h⟩
  | guessing h => exact ⟨hwords, hwords', hview, hwon, hlost, .guessing h⟩
  | echo h hletter => exact ⟨hwords, hwords', hview, hwon, hlost, .echo h hletter⟩

theorem Veils.store (h : Veils u v g f) (r s : Round) : Veils u v (g.store r) (f.store s) :=
  ⟨h.words_left, h.words_right, h.view, h.won, h.lost, h.scene⟩

theorem Veils.newRound (h : Veils u v g f) (hrivals : Text.Rivals u v) :
    Veils u v g.newRound f.newRound where
  words_left := h.words_left
  words_right := h.words_right
  view := h.view
  won := h.won
  lost := h.lost
  scene := by
    rw [scene_newRound_of_words h.words_left, scene_newRound_of_words h.words_right]
    exact .opening (Round.veils_start hrivals)

theorem Veils.hearLetter (h : Veils u v g f) {r s : Round} (hround : r.Veils u v s)
    (heard : Bytes) : Veils u v (g.hearLetter r heard) (f.hearLetter s heard) := by
  unfold Game.hearLetter
  split
  · rename_i letter hletter
    exact h.enter (.echo hround (Keys.toUpper_of_firstLetter? hletter))
  · exact h

theorem Veils.settle (h : Veils u v g f) (hrivals : Text.Rivals u v) {r s : Round}
    (hround : r.Veils u v s) {letter : Char} (hletter : letter.toUpper = letter)
    (hsame : Text.SamePlaces letter u v) :
    Veils u v (g.settle r letter) (f.settle s letter) := by
  have hguess := (hround.guess hrivals hletter hsame).2
  simp only [Game.settle, (hguess.standing hrivals).1]
  split
  · exact (h.store _ _).enter (.lost hguess)
  · exact h.enter (.board hguess)

theorem samePlaces_of_harmless {r : Round} {letter : Char} (hscene : g.scene = .echo r letter)
    (h : Entry.Harmless u v (noted g next)) : Text.SamePlaces letter u v := by
  apply h (letter, (r.guess letter).1, (r.guess letter).2.attempts)
  simp [noted, hscene, leaving, Entry.firstRound, Entry.endsRound, Entry.guess?]

theorem Veils.noted (h : Veils u v g f) (hrivals : Text.Rivals u v)
    (hnext : Veils u v next next') (hharmless : Entry.Harmless u v (noted g next)) :
    (Game.noted f next').map Entry.veiled = (Game.noted g next).map Entry.veiled := by
  have hleaving : leaving f.scene = leaving g.scene :=
    h.scene.leaving hrivals fun hscene => samePlaces_of_harmless hscene hharmless
  rw [Game.noted, Game.noted, hleaving, h.phase, hnext.phase, List.map_append, List.map_append,
    hnext.scene.arriving]
  simp

/-- Until the round is lost, games that look the same go on alike. -/
theorem Veils.cue (h : Veils u v g f) (hrivals : Text.Rivals u v)
    (hphase : g.phase ≠ .roundLost) : Cue.Alike (Follow u v g) g.cue f.cue := by
  have hscene := h.scene
  unfold Game.cue
  generalize hs : g.scene = s at hscene ⊢
  generalize f.scene = t at hscene ⊢
  cases hscene with
  | welcome => exact .go fun _ => h.newRound hrivals
  | opening hround => exact .go fun _ => h.enter (.board hround)
  | @board r s hround =>
    obtain ⟨hstanding, hopen⟩ := hround.standing hrivals
    simp only [afterBoard, hstanding, if_neg hopen]
    exact .go fun _ => h.enter (.prompt hround)
  | prompt hround => exact .go fun _ => h.enter (.guessing hround)
  | guessing hround => exact .listen fun heard _ => h.hearLetter hround heard
  | echo hround hletter =>
    refine .go fun hharmless => ?_
    exact h.settle hrivals hround hletter (samePlaces_of_harmless hs hharmless)
  | lost hround => exact absurd (congrArg Scene.phase hs) hphase

theorem phase_of_leads (h : Dialogue.Leads g next) :
    next.phase = g.phase ∨ next.phase ∈ g.phase.next := by
  cases successor_of_leads h with
  | @entered scene hleads =>
    rw [phase_enter]
    rcases hleads.phase with ⟨-, hsame⟩ | ⟨-, hedge⟩
    · exact .inl hsame
    · exact .inr hedge
  | @ended r scene hends =>
    rw [phase_enter]
    exact .inr hends.phase.2
  | began hscene =>
    rcases hscene with hwelcome | hanswering
    · simp [phase, scene_newRound, Scene.phase, Phase.next, hwelcome]
    · simp [phase, scene_newRound, Scene.phase, Phase.next, hanswering]
  | stayed _ => exact .inl rfl

/-- Only a game that leaves its round notes an end of it. -/
theorem phase_of_endsRound {entry : Entry} (hmem : entry ∈ noted g next)
    (hends : entry.endsRound = true) :
    g.phase = .roundActive ∧ next.phase ≠ .roundActive := by
  rw [noted, List.mem_append, List.mem_append] at hmem
  rcases hmem with (hleaving | hchanged) | harriving
  · unfold leaving at hleaving
    split at hleaving
    · obtain rfl := List.mem_singleton.mp hleaving
      cases hends
    · simp at hleaving
  · split at hchanged
    · simp at hchanged
    · rename_i hne
      obtain rfl := List.mem_singleton.mp hchanged
      cases hactive : g.phase <;> simp_all [Entry.endsRound, eq_comm]
  · unfold arriving at harriving
    split at harriving
    · obtain rfl := List.mem_singleton.mp harriving
      cases hends
    · simp at harriving

theorem Veils.endsRound_noted (h : Veils u v next f)
    (hedge : next.phase = g.phase ∨ next.phase ∈ g.phase.next)
    (hphase : next.phase ≠ .roundLost) : ∀ entry ∈ Game.noted g next, entry.endsRound = false := by
  intro entry hmem
  rw [Bool.eq_false_iff]
  intro hends
  obtain ⟨hactive, hleft⟩ := phase_of_endsRound hmem hends
  rw [hactive] at hedge
  have hwon : next.phase = .roundWon := by
    simpa [Phase.next, hleft, hphase] using hedge
  exact h.scene.phase_ne_won hwon

theorem lost_mem_noted (hedge : next.phase = g.phase ∨ next.phase ∈ g.phase.next)
    (hopen : g.phase ≠ .roundLost) (hphase : next.phase = .roundLost) :
    .phaseChanged .roundActive .roundLost ∈ noted g next := by
  have hactive : g.phase = .roundActive := by
    rw [hphase] at hedge
    rcases hedge with hsame | hnext
    · exact absurd hsame.symm hopen
    · cases hg : g.phase <;> simp [hg, Phase.next] at hnext
      rfl
  simp [noted, hactive, hphase]

end Game

/-! ## Two sessions side by side -/

inductive Agenda.Veils (u v : String) (g f : Game) : Agenda Game → Agenda Game → Prop where
  | play (rest : Script) (hphase : g.phase ≠ .roundLost) : Veils u v g f (.play rest) (.play rest)
  /-- The lost screen is played, and its last line is still to come. -/
  | verdict (rest : Script) (hphase : g.phase = .roundLost) :
    Veils u v g f (.play (rest ++ View.verdict u)) (.play (rest ++ View.verdict v))
  | turn {next next' : Game} (hfollow : Game.Follow u v g next next')
      (hphase : g.phase ≠ .roundLost) : Veils u v g f (.turn next) (.turn next')
  | leave (loss : Option Loss) : Veils u v g f (.leave loss) (.leave loss)
  | done (loss : Option Loss) : Veils u v g f (.done loss) (.done loss)
  | stuck : Veils u v g f .stuck .stuck

namespace Run

variable {ℓ : Type}

/-- Two runs on two words that have used one line in the same way. -/
structure Veils (u v : String) (r s : Run Game (Logged ℓ)) : Prop where
  state : r.state.Veils u v s.state
  agenda : r.agenda.Veils u v r.state s.state s.agenda
  line : s.line = r.line
  now : s.now = r.now
  journal : s.journal.map Entry.veiled = r.journal.map Entry.veiled
  unfinished (htalking : r.isTalking = true) (hphase : r.state.phase ≠ .roundLost) :
    ∀ entry ∈ r.journal, entry.endsRound = false
  lost (hphase : r.state.phase = .roundLost) :
    .phaseChanged .roundActive .roundLost ∈ r.journal

/-- Two runs that have lost the first round in the same way, and have each sent the line
that tells its word. -/
structure Apart (u v : String) (r s : Run Game (Logged ℓ)) : Prop where
  calls : ∃ shared result result',
    shared ++ [.send (Script.wire (View.verdict u)) result] <+: r.line.calls ∧
      shared ++ [.send (Script.wire (View.verdict v)) result'] <+: s.line.calls
  journal : Entry.firstRound s.journal = Entry.firstRound r.journal
  lost_left : .phaseChanged .roundActive .roundLost ∈ r.journal
  lost_right : .phaseChanged .roundActive .roundLost ∈ s.journal

variable [Line ℓ] {u v : String} {r s : Run Game (Logged ℓ)}

/-! ### What has passed stays -/

structure Extends (r s : Run Game (Logged ℓ)) : Prop where
  calls : r.line.calls <+: s.line.calls
  journal : r.journal <+: s.journal

theorem extends_move {pacing : Pacing} (hmove : Move pacing r s) : r.Extends s where
  calls := by
    cases hmove.handles with
    | kept htalking hline => exact hline ▸ List.prefix_refl _
    | sent htalking octets hline => exact hline ▸ List.prefix_append _ _
    | received htalking hline => exact hline ▸ List.prefix_append _ _
    | closed hquiet hline => exact hline ▸ List.prefix_append _ _
  journal := by
    cases hmove with
    | turned hagenda => exact journal_note r _ ▸ List.prefix_append _ _
    | left hagenda => exact journal_note r _ ▸ List.prefix_append _ _
    | _ => exact List.prefix_refl _

theorem extends_steps (pacing : Pacing) (r : Run Game (Logged ℓ)) (count : Nat) :
    r.Extends (r.steps pacing count) := by
  apply steps_induction (Extends r)
  · intro s t h hmove
    have hnext := extends_move hmove
    exact ⟨h.calls.trans hnext.calls, h.journal.trans hnext.journal⟩
  · exact ⟨List.prefix_refl _, List.prefix_refl _⟩

theorem extends_runUntil (pacing : Pacing) (limit : Option Nat) (fuel : Nat)
    (r : Run Game (Logged ℓ)) : r.Extends (r.runUntil pacing limit fuel) := by
  obtain ⟨count, hcount⟩ := exists_steps_of_runUntil pacing limit fuel r
  rw [hcount]
  exact extends_steps pacing r count

omit [Line ℓ] in
theorem Extends.harmless (h : r.Extends s) (hharmless : Entry.Harmless u v s.journal) :
    Entry.Harmless u v r.journal := by
  obtain ⟨later, hlater⟩ := h.journal
  intro told htold
  apply hharmless told
  rw [← hlater]
  exact Entry.firstRound_subset _ _ htold

omit [Line ℓ] in
theorem Apart.extends {r' s' : Run Game (Logged ℓ)} (h : Apart u v r s) (hr : r.Extends r')
    (hs : s.Extends s') : Apart u v r' s' := by
  obtain ⟨shared, result, result', hleft, hright⟩ := h.calls
  refine ⟨⟨shared, result, result', hleft.trans hr.calls, hright.trans hs.calls⟩, ?_,
    hr.journal.subset h.lost_left, hs.journal.subset h.lost_right⟩
  obtain ⟨later, hlater⟩ := hr.journal
  obtain ⟨later', hlater'⟩ := hs.journal
  rw [← hlater, ← hlater', Entry.firstRound_append_of_mem h.lost_left rfl,
    Entry.firstRound_append_of_mem h.lost_right rfl, h.journal]

/-! ### One step of both -/

variable {pacing : Pacing}

theorem Veils.step_send (h : Veils u v r s) {parts : List Part} {rest rest' : Script}
    (hagenda : r.agenda = .play (.send parts :: rest))
    (hagenda' : s.agenda = .play (.send parts :: rest'))
    (hrest : (Agenda.play rest).Veils u v r.state s.state (.play rest')) :
    Veils u v (r.step pacing) (s.step pacing) := by
  have hunfinished := h.unfinished (by simp [isTalking, hagenda])
  have hsame : Line.send s.line s.now (Step.chunk parts)
      = Line.send r.line r.now (Step.chunk parts) := by rw [h.line, h.now]
  rcases hsend : Line.send r.line r.now (Step.chunk parts) with ⟨line, time, loss | _⟩
  · rw [(Move.unsent hagenda hsend).step_eq, (Move.unsent hagenda' (hsame.trans hsend)).step_eq]
    exact ⟨h.state, .leave _, rfl, rfl, h.journal, fun _ => hunfinished, h.lost⟩
  · rw [(Move.sent hagenda hsend).step_eq, (Move.sent hagenda' (hsame.trans hsend)).step_eq]
    exact ⟨h.state, hrest, rfl, rfl, h.journal, fun _ => hunfinished, h.lost⟩

theorem Veils.step_pause (h : Veils u v r s) {length : Duration} {rest rest' : Script}
    (hagenda : r.agenda = .play (.pause length :: rest))
    (hagenda' : s.agenda = .play (.pause length :: rest'))
    (hrest : (Agenda.play rest).Veils u v r.state s.state (.play rest')) :
    Veils u v (r.step pacing) (s.step pacing) := by
  have hunfinished := h.unfinished (by simp [isTalking, hagenda])
  rw [(Move.paused hagenda).step_eq, (Move.paused hagenda').step_eq]
  exact ⟨h.state, hrest, h.line, congrArg (· + _) h.now, h.journal, fun _ => hunfinished, h.lost⟩

theorem Veils.step_play (h : Veils u v r s) {first : Step} {rest rest' : Script}
    (hagenda : r.agenda = .play (first :: rest))
    (hagenda' : s.agenda = .play (first :: rest'))
    (hrest : (Agenda.play rest).Veils u v r.state s.state (.play rest')) :
    Veils u v (r.step pacing) (s.step pacing) := by
  cases first with
  | send parts => exact h.step_send hagenda hagenda' hrest
  | pause length => exact h.step_pause hagenda hagenda' hrest

theorem Veils.step_cue (h : Veils u v r s) (hrivals : Text.Rivals u v)
    (hphase : r.state.phase ≠ .roundLost) (hagenda : r.agenda = .play [])
    (hagenda' : s.agenda = .play []) : Veils u v (r.step pacing) (s.step pacing) := by
  have hunfinished := h.unfinished (by simp [isTalking, hagenda])
  have hcue := h.state.cue hrivals hphase
  generalize hr : r.state.cue = cue at hcue
  generalize hs : s.state.cue = cue' at hcue
  cases hcue with
  | go hfollow =>
    rw [(Move.went hagenda hr).step_eq, (Move.went hagenda' hs).step_eq]
    exact ⟨h.state, .turn hfollow hphase, h.line, h.now, h.journal, fun _ => hunfinished,
      h.lost⟩
  | ended =>
    rw [(Move.ended hagenda hr).step_eq, (Move.ended hagenda' hs).step_eq]
    exact ⟨h.state, .leave none, h.line, h.now, h.journal, fun _ => hunfinished, h.lost⟩
  | listen hfollow =>
    have hsame : Line.receive s.line s.now 1 = Line.receive r.line r.now 1 := by
      rw [h.line, h.now]
    rcases hreceive : Line.receive r.line r.now 1 with ⟨line, _ | ⟨time, loss | octets⟩⟩
    · rw [(Move.unanswered hagenda hr hreceive).step_eq,
        (Move.unanswered hagenda' hs (hsame.trans hreceive)).step_eq]
      exact ⟨h.state, .stuck, rfl, h.now, h.journal, fun _ => hunfinished, h.lost⟩
    · rw [(Move.unheard hagenda hr hreceive).step_eq,
        (Move.unheard hagenda' hs (hsame.trans hreceive)).step_eq]
      exact ⟨h.state, .leave _, rfl, rfl, h.journal, fun _ => hunfinished, h.lost⟩
    · rw [(Move.heard hagenda hr hreceive).step_eq,
        (Move.heard hagenda' hs (hsame.trans hreceive)).step_eq]
      exact ⟨h.state, .turn (hfollow octets) hphase, rfl, rfl, h.journal,
        fun _ => hunfinished, h.lost⟩

/-- A game that has noted nothing but harmless guesses goes on as its twin does. -/
theorem Veils.step_turn (h : Veils u v r s) (hrivals : Text.Rivals u v) (hled : r.Led)
    {next next' : Game} (hphase : r.state.phase ≠ .roundLost)
    (hfollow : Game.Follow u v r.state next next') (hagenda : r.agenda = .turn next)
    (hagenda' : s.agenda = .turn next')
    (hharmless : Entry.Harmless u v (r.step pacing).journal) :
    Veils u v (r.step pacing) (s.step pacing) := by
  have hunfinished := h.unfinished (by simp [isTalking, hagenda]) hphase
  have hedge := Game.phase_of_leads (hled next (by simp [entered?, hagenda]))
  rw [(Move.turned hagenda).step_eq] at hharmless ⊢
  rw [(Move.turned hagenda').step_eq]
  have hjournal : ({ r.note (Dialogue.noted r.state next) with
      state := next, agenda := .play (Dialogue.screen next) } : Run Game (Logged ℓ)).journal
        = r.journal ++ Game.noted r.state next := journal_note r _
  have hjournal' : ({ s.note (Dialogue.noted s.state next') with
      state := next', agenda := .play (Dialogue.screen next') } : Run Game (Logged ℓ)).journal
        = s.journal ++ Game.noted s.state next' := journal_note s _
  have hnoted : Entry.Harmless u v (Game.noted r.state next) := by
    intro told htold
    apply hharmless told
    rw [hjournal, Entry.firstRound_append_of_open hunfinished]
    exact List.mem_append_right _ htold
  have hnext := hfollow hnoted
  refine ⟨hnext, ?_, h.line, h.now, ?_, fun _ hopen => ?_, fun hlost => ?_⟩
  · by_cases hlost : next.phase = .roundLost
    · obtain ⟨shared, hleft, hright⟩ := hnext.scene.screen_lost hlost next.view
      have hscreen : Dialogue.screen next = shared ++ View.verdict u := hleft
      have hscreen' : Dialogue.screen next' = shared ++ View.verdict v := by
        rw [← hright, ← hnext.view]
        rfl
      rw [hscreen, hscreen']
      exact .verdict shared hlost
    · have hscreen : Dialogue.screen next' = Dialogue.screen next := by
        show next'.scene.screen next'.view = next.scene.screen next.view
        rw [hnext.view, hnext.scene.screen hrivals hlost]
      rw [hscreen]
      exact .play _ hlost
  · rw [hjournal, hjournal', List.map_append, List.map_append, h.journal,
      h.state.noted hrivals hnext hnoted]
  · rw [hjournal]
    intro entry hmem
    rcases List.mem_append.mp hmem with hbefore | hlast
    · exact hunfinished entry hbefore
    · exact hnext.endsRound_noted hedge hopen entry hlast
  · rw [hjournal]
    exact List.mem_append_right _ (Game.lost_mem_noted hedge hphase hlost)

theorem Veils.step_leave (h : Veils u v r s) {loss : Option Loss}
    (hagenda : r.agenda = .leave loss) (hagenda' : s.agenda = .leave loss) :
    Veils u v (r.step pacing) (s.step pacing) := by
  rw [(Move.left hagenda).step_eq, (Move.left hagenda').step_eq]
  have hclosing : Dialogue.closing s.state loss = Dialogue.closing r.state loss := by
    cases loss with
    | none => exact congrArg₂ Entry.gameFinished h.state.won h.state.lost
    | some loss => exact congrArg (Entry.gameLost · loss) h.state.phase
  refine ⟨h.state, .done loss, congrArg (fun line => (Line.close line).1) h.line, h.now, ?_,
    fun htalking => by simp [isTalking] at htalking, fun hlost => ?_⟩
  · show List.map Entry.veiled (s.note _).journal = List.map Entry.veiled (r.note _).journal
    rw [journal_note, journal_note, List.map_append, List.map_append, h.journal, hclosing,
      h.line]
  · show Entry.phaseChanged .roundActive .roundLost ∈ (r.note _).journal
    rw [journal_note]
    exact List.mem_append_left _ (h.lost hlost)

/-- The last line of the lost screen tells the words apart. -/
theorem Veils.step_verdict (h : Veils u v r s) (hphase : r.state.phase = .roundLost)
    (hagenda : r.agenda = .play (View.verdict u))
    (hagenda' : s.agenda = .play (View.verdict v)) :
    Apart u v (r.step pacing) (s.step pacing) := by
  have hlost := h.lost hphase
  have hsent {r : Run Game (Logged ℓ)} {word : String}
      (hagenda : r.agenda = .play (View.verdict word)) :
      ∃ result, (r.step pacing).line.calls
          = r.line.calls ++ [.send (Script.wire (View.verdict word)) result] ∧
        (r.step pacing).journal = r.journal := by
    have hchunk : Step.chunk [.text ("Game Over! The word was: " ++ word), .octets lineEnd]
        = Script.wire (View.verdict word) := by
      simp [View.verdict, Script.wire, Script.line, Script.chunks, Step.chunk?]
    simp only [step, hagenda, View.verdict, Script.line, sendChunk, hchunk]
    exact ⟨_, rfl, rfl⟩
  obtain ⟨result, hcalls, hjournal⟩ := hsent hagenda
  obtain ⟨result', hcalls', hjournal'⟩ := hsent hagenda'
  refine ⟨⟨r.line.calls, result, result', ?_, ?_⟩, ?_, ?_, ?_⟩
  · rw [hcalls]
  · rw [hcalls', h.line]
  · rw [hjournal, hjournal', ← Entry.firstRound_veiled, h.journal, Entry.firstRound_veiled]
  · rwa [hjournal]
  · rw [hjournal']
    have hveiled : (Entry.phaseChanged .roundActive .roundLost).veiled
        ∈ s.journal.map Entry.veiled := by
      rw [h.journal]
      exact List.mem_map_of_mem hlost
    obtain ⟨entry, hmem, hentry⟩ := List.mem_map.mp hveiled
    cases entry <;> cases hentry
    exact hmem

theorem Veils.step (h : Veils u v r s) (hrivals : Text.Rivals u v) (hled : r.Led)
    (hharmless : Entry.Harmless u v (r.step pacing).journal) :
    Veils u v (r.step pacing) (s.step pacing) ∨ Apart u v (r.step pacing) (s.step pacing) := by
  have hagenda := h.agenda
  generalize hr : r.agenda = agenda at hagenda
  generalize hs : s.agenda = agenda' at hagenda
  cases hagenda with
  | play rest hphase =>
    cases rest with
    | nil => exact .inl (h.step_cue hrivals hphase hr hs)
    | cons first rest => exact .inl (h.step_play hr hs (.play rest hphase))
  | verdict rest hphase =>
    cases rest with
    | nil => exact .inr (h.step_verdict hphase hr hs)
    | cons first rest => exact .inl (h.step_play hr hs (.verdict rest hphase))
  | turn hfollow hphase =>
    exact .inl (h.step_turn hrivals hled hphase hfollow hr hs hharmless)
  | leave loss => exact .inl (h.step_leave hr hs)
  | done loss =>
    have hover : r.isOver = true := by simp [isOver, hr]
    have hover' : s.isOver = true := by simp [isOver, hs]
    rw [step_of_isOver pacing r hover, step_of_isOver pacing s hover']
    exact .inl h
  | stuck =>
    have hover : r.isOver = true := by simp [isOver, hr]
    have hover' : s.isOver = true := by simp [isOver, hs]
    rw [step_of_isOver pacing r hover, step_of_isOver pacing s hover']
    exact .inl h

omit [Line ℓ] in
theorem Veils.isOver (h : Veils u v r s) : s.isOver = r.isOver := by
  have hagenda := h.agenda
  unfold Run.isOver
  generalize r.agenda = agenda at hagenda
  generalize s.agenda = agenda' at hagenda
  cases hagenda <;> rfl

omit [Line ℓ] in
theorem Veils.report (h : Veils u v r s) : s.report? = r.report? := by
  have hagenda := h.agenda
  have hreport (loss : Option Loss) :
      Dialogue.report s.state loss = Dialogue.report r.state loss := by
    show Report.game _ _ s.state.phase loss = Report.game _ _ r.state.phase loss
    rw [h.state.won, h.state.lost, h.state.phase]
  unfold Run.report?
  generalize r.agenda = agenda at hagenda
  generalize s.agenda = agenda' at hagenda
  cases hagenda with
  | done loss => exact congrArg some (hreport loss)
  | _ => rfl

/-- Two runs stay alike, unless they come to tell their words at the end of a lost round. -/
theorem Veils.runUntil (hrivals : Text.Rivals u v) (limit : Option Nat) (fuel : Nat)
    (h : Veils u v r s) (hled : r.Led)
    (hharmless : Entry.Harmless u v (r.runUntil pacing limit fuel).journal) :
    Veils u v (r.runUntil pacing limit fuel) (s.runUntil pacing limit fuel) ∨
      Apart u v (r.runUntil pacing limit fuel) (s.runUntil pacing limit fuel) := by
  induction fuel generalizing r s with
  | zero => exact .inl h
  | succ fuel ih =>
    simp only [Run.runUntil, h.isOver, h.now] at hharmless ⊢
    by_cases hstop : (r.isOver || isPast limit r.now) = true
    · rw [if_pos hstop, if_pos hstop]
      exact .inl h
    · rw [if_neg hstop] at hharmless ⊢
      rw [if_neg hstop]
      have hover : r.isOver = false := by
        simp only [Bool.or_eq_true, not_or, Bool.not_eq_true] at hstop
        exact hstop.1
      have hstep := (extends_runUntil pacing limit fuel _).harmless hharmless
      rcases h.step hrivals hled hstep with hveils | hapart
      · exact ih hveils (led_of_move (move_step pacing r hover)) hharmless
      · exact .inr (hapart.extends (extends_runUntil ..) (extends_runUntil ..))

end Run

def Options.on (options : Options) (word : String) : Options := { options with words := [word] }

theorem Run.veils_begin {ℓ : Type} [Line ℓ] (options : Options) {u v : String}
    (line : Logged ℓ) :
    Veils u v (begin (Game.start (options.on u)) line 0)
      (begin (Game.start (options.on v)) line 0) where
  state := ⟨rfl, rfl, rfl, rfl, rfl, .welcome⟩
  agenda := .play _ (by simp [begin, Game.phase, Game.start, Scene.phase])
  line := rfl
  now := rfl
  journal := rfl
  unfinished _ _ := by simp [begin, Run.journal, Entry.endsRound]
  lost hphase := by cases hphase

structure Outcome.Veils {ℓ : Type} (first second : Outcome ℓ) : Prop where
  line : first.line = second.line
  now : first.now = second.now
  report : first.report = second.report
  journal : first.journal.map Entry.veiled = second.journal.map Entry.veiled

/-- Two logs that are the same up to the sends of two chunks. -/
def Call.PartAt (chunk chunk' : Bytes) (calls calls' : List Call) : Prop :=
  ∃ shared result result' later later',
    calls = shared ++ .send chunk result :: later ∧
      calls' = shared ++ .send chunk' result' :: later'

/-- **A session does not tell its word.**  Two words in capitals have the same length, and
every letter that is guessed in the first round stands at the same places in both.  Then
the guesses of the first round, their answers and the attempts left are the same whichever
of the two is the secret.  So is all that passes over the line, and all that is noted and
reported but for the word in the journal; unless the round is lost, and then it is the same
up to the line that tells the word. -/
theorem calls_eq_or_partAt {ℓ : Type} [Line ℓ] (options : Options) {u v : String}
    (hu : ∀ c ∈ u.toList, c.isUpper = true) (hv : ∀ c ∈ v.toList, c.isUpper = true)
    (hlength : u.length = v.length) (limit : Option Nat) (patience : Nat) (line : ℓ)
    (hsame : ∀ told ∈ Entry.firstRound
        (Program.game.run (options.on u) limit patience line).journal,
      Text.SamePlaces told.1 u v) :
    Entry.firstRound (Program.game.run (options.on u) limit patience line).journal
        = Entry.firstRound (Program.game.run (options.on v) limit patience line).journal ∧
      (Program.game.calls (options.on u) limit patience line
            = Program.game.calls (options.on v) limit patience line ∧
          (Program.game.run (options.on u) limit patience line).Veils
            (Program.game.run (options.on v) limit patience line) ∨
        .phaseChanged .roundActive .roundLost
            ∈ (Program.game.run (options.on u) limit patience line).journal ∧
          .phaseChanged .roundActive .roundLost
            ∈ (Program.game.run (options.on v) limit patience line).journal ∧
          Call.PartAt (Script.wire (View.verdict u)) (Script.wire (View.verdict v))
            (Program.game.calls (options.on u) limit patience line)
            (Program.game.calls (options.on v) limit patience line)) := by
  by_cases huv : u = v
  · subst huv
    exact ⟨rfl, .inl ⟨rfl, rfl, rfl, rfl, rfl⟩⟩
  · have hrivals : Text.Rivals u v := ⟨huv, hlength, hu, hv⟩
    rw [Program.run_log] at hsame
    rw [Program.run_log, Program.run_log Program.game (options.on v)]
    rcases Run.Veils.runUntil hrivals limit ((patience + 1) * Dialogue.stride Game)
      (Run.veils_begin options (Logged.log line)) (Run.led_begin _ _ _) hsame
      with hveils | hapart
    · have hjournal := hveils.journal
      have hreport := hveils.report
      refine ⟨?_, .inl ⟨congrArg Logged.calls hveils.line.symm,
        congrArg Logged.line hveils.line.symm, hveils.now.symm, hreport.symm, hjournal.symm⟩⟩
      exact (Entry.firstRound_veiled _).symm.trans
        ((congrArg Entry.firstRound hjournal.symm).trans (Entry.firstRound_veiled _))
    · obtain ⟨shared, result, result', ⟨later, hleft⟩, later', hright⟩ := hapart.calls
      refine ⟨hapart.journal.symm, .inr ⟨hapart.lost_left, hapart.lost_right, shared, result,
        result', later, later', ?_, ?_⟩⟩
      · exact hleft.symm.trans (List.append_assoc _ _ _)
      · exact hright.symm.trans (List.append_assoc _ _ _)

/-- A player who leaves after the letter that a lion and a lynx share. -/
theorem calls_lion_lynx :
    (∀ told ∈ Entry.firstRound
        (Program.game.run (Options.usual.on "LION") none 2 (Recorded.ofBytes [0x6C])).journal,
      Text.SamePlaces told.1 "LION" "LYNX") ∧
    Program.game.calls (Options.usual.on "LION") none 2 (Recorded.ofBytes [0x6C])
      = Program.game.calls (Options.usual.on "LYNX") none 2 (Recorded.ofBytes [0x6C]) := by
  have hlion : ∀ c ∈ "LION".toList, c.isUpper = true := by simp
  have hlynx : ∀ c ∈ "LYNX".toList, c.isUpper = true := by simp
  have hjournal :
      (∀ told ∈ Entry.firstRound (Program.game.run (Options.usual.on "LION") none 2
          (Recorded.ofBytes [0x6C])).journal, Text.SamePlaces told.1 "LION" "LYNX") ∧
        Entry.phaseChanged .roundActive .roundLost ∉ (Program.game.run
          (Options.usual.on "LION") none 2 (Recorded.ofBytes [0x6C])).journal := by
    decide +kernel
  obtain ⟨hsame, hunfinished⟩ := hjournal
  refine ⟨hsame, ?_⟩
  obtain ⟨-, ⟨hcalls, -⟩ | ⟨hlost, -⟩⟩ := calls_eq_or_partAt Options.usual hlion hlynx rfl
    none 2 (Recorded.ofBytes [0x6C]) hsame
  · exact hcalls
  · exact absurd hlost hunfinished

end TerminalHost
