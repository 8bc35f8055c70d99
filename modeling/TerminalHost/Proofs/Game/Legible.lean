import TerminalHost.Proofs.Game.Phases
import TerminalHost.Proofs.Game.Telling
import TerminalHost.Proofs.Settings.Resolving
import TerminalHost.Proofs.Text.Letters
import TerminalHost.Proofs.Wire.Legible

/-!
# The texts of the game

The game shows its word, the guessed letters and the letter that was typed, and it lets
nothing but letters become any of these: a word is refused if it holds anything else, and
any other octet is passed over.  So all of its texts are plain.
-/

namespace TerminalHost

/-! ## Words of letters -/

namespace Text

theorem isPlainChar_of_isLetter {c : Char} (h : isLetter c = true) : isPlainChar c = true := by
  have hletter := toNat_of_isLetter h
  have hrange : (0x20 ≤ c.toNat && c.toNat ≤ 0x7E) = true := by
    rw [Bool.and_eq_true, decide_eq_true_eq, decide_eq_true_eq]
    omega
  simp [isPlainChar, hrange]

theorem IsSpelled.isPlain {text : String} (h : IsSpelled text) : IsPlain text := by
  rw [← String.ofList_toList (s := text)]
  apply isPlain_ofList
  rw [List.all_eq_true]
  intro c hc
  exact isPlainChar_of_isLetter (h c hc)

end Text

theorem isSpelled_of_resolve {arguments : Arguments} {run : RunSettings}
    (h : arguments.resolve = .ok run) : ∀ word ∈ run.session.words, Text.IsSpelled word :=
  isSpelled_of_forall₂ (Arguments.yields_iff.mp h).words

theorem isSpelled_animals : ∀ word ∈ animals, Text.IsSpelled word := by
  simp only [animals, List.forall_mem_cons]
  and_intros <;> first | exact Text.isSpelled_ofList rfl | simp

theorem Generator.mem_of_pick {α : Type} {generator : Generator} {items : List α} {item : α}
    (h : (generator.pick items).1 = some item) : item ∈ items := by
  unfold pick at h
  split at h
  · cases h
  · exact List.mem_of_getElem? h

/-! ## The rounds of a game -/

namespace Round

structure IsSpelled (r : Round) : Prop where
  target : Text.IsSpelled r.target
  guessed : ∀ c ∈ r.guessed, Text.isLetter c = true

theorem isSpelled_start {word : String} (h : Text.IsSpelled word) : (start word).IsSpelled :=
  ⟨h.capitals, by simp [start]⟩

theorem IsSpelled.guess {r : Round} (h : r.IsSpelled) (letter : Char) :
    (r.guess letter).2.IsSpelled := by
  by_cases hopen : Text.isLetter letter = true ∧ r.standing = .inProgress
  · have hinsert (c : Char) (hc : c ∈ insertLetter letter.toUpper r.guessed) :
        Text.isLetter c = true := by
      rcases (mem_insertLetter _ c r.guessed).mp hc with rfl | hmem
      · exact Text.isLetter_toUpper hopen.1
      · exact h.guessed c hmem
    rw [guess_of_open hopen.1 hopen.2]
    split
    · exact h
    · split
      · exact ⟨h.target, hinsert⟩
      · exact ⟨h.target, hinsert⟩
  · rw [guess_of_closed hopen]
    exact h

theorem IsSpelled.isPlain_masked {r : Round} (h : r.IsSpelled) : Text.IsPlain r.masked := by
  apply Text.isPlain_ofList
  rw [List.all_eq_true]
  intro c hc
  rw [List.mem_flatMap] at hc
  obtain ⟨d, hd, hc⟩ := hc
  simp only [List.mem_cons, List.not_mem_nil, or_false] at hc
  rcases hc with rfl | rfl
  · split
    · exact Text.isPlainChar_of_isLetter (h.target d hd)
    · decide
  · decide

theorem mem_of_mem_intersperse {c separator : Char} {letters : List Char}
    (h : c ∈ letters.intersperse separator) : c = separator ∨ c ∈ letters := by
  fun_induction List.intersperse separator letters with
  | case1 => exact .inr h
  | case2 => exact .inr h
  | case3 => grind

theorem IsSpelled.isPlain_guessedDisplay {r : Round} (h : r.IsSpelled) :
    Text.IsPlain r.guessedDisplay := by
  apply Text.isPlain_ofList
  rw [List.all_eq_true]
  intro c hc
  rcases mem_of_mem_intersperse hc with rfl | hmem
  · decide
  · exact Text.isPlainChar_of_isLetter (h.guessed c hmem)

end Round

/-! ## The scenes of a game -/

namespace Scene

structure IsSpelled (scene : Scene) : Prop where
  round {r : Round} (hround : scene.round? = some r) : r.IsSpelled
  letter {r : Round} {c : Char} (hecho : scene = .echo r c) : Text.isLetter c = true

theorem isSpelled_of_round {scene : Scene} {r : Round} (h : r.IsSpelled)
    (hround : scene.round? = some r) (hecho : ∀ s c, scene ≠ .echo s c) : scene.IsSpelled where
  round hsome := Option.some.inj (hround.symm.trans hsome) ▸ h
  letter hscene := absurd hscene (hecho _ _)

theorem isSpelled_of_none {scene : Scene} (h : scene.round? = none) : scene.IsSpelled where
  round hsome := by simp [h] at hsome
  letter hecho := by simp [hecho, round?] at h

theorem Ends.isSpelled {s t : Scene} {r : Round} (hends : Ends s r t) (h : s.IsSpelled) :
    t.IsSpelled := by
  cases hends with
  | won => exact isSpelled_of_none rfl
  | lost hlost => exact isSpelled_of_round ((h.round rfl).guess _) rfl (by simp)

theorem Leads.isSpelled {s t : Scene} (hleads : Leads s t) (h : s.IsSpelled) : t.IsSpelled := by
  cases hleads with
  | echo r hletter =>
    refine ⟨fun hround => ?_, fun hecho => ?_⟩
    · exact h.round hround
    · cases hecho
      exact hletter
  | @again r letter hopen => exact isSpelled_of_round ((h.round rfl).guess letter) rfl (by simp)
  | replayWon | replayLost | answering | farewell | closed => exact isSpelled_of_none rfl
  | _ => exact isSpelled_of_round (h.round rfl) rfl (by simp)

end Scene

namespace Game

structure IsSpelled (g : Game) : Prop where
  words : ∀ word ∈ g.words, Text.IsSpelled word
  scene : g.scene.IsSpelled

theorem isSpelled_start {options : Options} (h : ∀ word ∈ options.words, Text.IsSpelled word) :
    (start options).IsSpelled where
  words := by
    unfold start
    split
    · exact isSpelled_animals
    · exact h
  scene := Scene.isSpelled_of_none rfl

theorem IsSpelled.newRound {g : Game} (h : g.IsSpelled) : g.newRound.IsSpelled where
  words := h.words
  scene := by
    have hword : Text.IsSpelled ((g.generator.pick g.words).1.getD "LION") := by
      cases hpick : (g.generator.pick g.words).1 with
      | none => exact Text.isSpelled_ofList rfl
      | some word => exact h.words word (Generator.mem_of_pick hpick)
    rw [scene_newRound]
    exact Scene.isSpelled_of_round (Round.isSpelled_start hword) rfl (by simp)

theorem IsSpelled.leads {g next : Game} (h : g.IsSpelled) (hleads : Dialogue.Leads g next) :
    next.IsSpelled := by
  cases successor_of_leads hleads with
  | @entered scene hscene =>
    refine ⟨?_, ?_⟩
    · rw [words_enter]
      exact h.words
    · rw [scene_enter]
      exact hscene.isSpelled h.scene
  | @ended r scene hends =>
    refine ⟨?_, ?_⟩
    · rw [words_enter]
      exact h.words
    · rw [scene_enter]
      exact hends.isSpelled h.scene
  | began _ => exact h.newRound
  | stayed _ => exact h

end Game

/-! ## The screens of a game -/

namespace View

theorem legible_textsFrom (view : View) {texts : List String}
    (h : ∀ text ∈ texts, Text.IsPlain text) (row : UInt8) :
    (view.textsFrom row texts).Legible := by
  induction texts generalizing row with
  | nil => exact Script.legible_nil
  | cons text rest ih =>
    rw [List.forall_mem_cons] at h
    simp [textsFrom, textAt, h.1, ih h.2]

theorem isPlain_gallows (stage : Nat) : ∀ text ∈ gallows stage, Text.IsPlain text := by
  delta gallows
  simp only [List.forall_mem_cons]
  -- The head, the body and the legs depend on the stage; the other rows do not.
  and_intros <;> first
    | (split <;> exact Text.isPlain_ofList rfl)
    | exact Text.isPlain_ofList rfl
    | simp

theorem legible_clear : clear.Legible := by
  simp [clear]

theorem legible_board (view : View) {r : Round} (h : r.IsSpelled) : (view.board r).Legible := by
  have hword : Text.IsPlain "Word: " := Text.isPlain_ofList rfl
  have hguessed : Text.IsPlain "Guessed letters: " := Text.isPlain_ofList rfl
  have hattempts : Text.IsPlain "Attempts left: " := Text.isPlain_ofList rfl
  have hgallows := view.legible_textsFrom (isPlain_gallows r.stage) gallowsRow
  simp only [board, textAt, Script.legible_append, Script.legible_moveTo, Script.legible_text,
    Text.isPlain_append, legible_clear, hgallows, hword, hguessed, hattempts, h.isPlain_masked,
    h.isPlain_guessedDisplay, Text.isPlain_toString, and_self]

theorem legible_lost (view : View) {r : Round} (h : r.IsSpelled) : (view.lost r).Legible := by
  have hover : Text.IsPlain "Game Over! The word was: " := Text.isPlain_ofList rfl
  have hgallows := view.legible_textsFrom (isPlain_gallows Round.maxAttempts) gallowsRow
  simp only [lost, lineAt, Script.legible_append, Script.legible_moveTo, Script.legible_line,
    Text.isPlain_append, legible_clear, hgallows, hover, h.target.isPlain, and_self]

theorem legible_welcome : welcome.Legible := by
  have hlines : ∀ line ∈ welcomeLines, Text.IsPlain line := by
    simp only [welcomeLines, List.forall_mem_cons]
    and_intros <;> first | exact Text.isPlain_ofList rfl | simp
  simp [welcome, legible_clear, Script.legible_banner hlines]

theorem legible_farewell : farewell.Legible := by
  have hthanks : Text.IsPlain "Thanks for playing! Goodbye!" := Text.isPlain_ofList rfl
  simp [farewell, legible_clear, hthanks]

theorem legible_echo {letter : Char} (h : Text.isLetter letter = true) :
    (echo letter).Legible := by
  have hletter : Text.IsPlain (String.singleton letter) := by
    apply Text.IsSpelled.isPlain
    simpa [Text.IsSpelled] using h
  rwa [echo, Script.legible_line]

end View

/-- Every screen of a game that knows nothing but letters can be read. -/
theorem Game.IsSpelled.legible_screen {g : Game} (h : g.IsSpelled) :
    (Dialogue.screen g).Legible := by
  have hscene := h.scene
  show (g.scene.screen g.view).Legible
  generalize g.scene = scene at hscene
  match scene with
  | .welcome => exact View.legible_welcome
  | .opening r => exact View.legible_clear
  | .board r => exact g.view.legible_board (hscene.round rfl)
  | .lost (some r) => exact g.view.legible_lost (hscene.round rfl)
  | .echo r letter => exact View.legible_echo (hscene.letter rfl)
  | .farewell => exact View.legible_farewell
  | .prompt r =>
    have htext : Text.IsPlain "Enter a letter: " := Text.isPlain_ofList rfl
    simp [Scene.screen, View.prompt, View.textAt, htext]
  | .won =>
    have htext : Text.IsPlain "Congratulations! You won!" := Text.isPlain_ofList rfl
    simp [Scene.screen, View.won, View.lineAt, htext]
  | .replay =>
    have htext : Text.IsPlain "Play again? (Y/N): " := Text.isPlain_ofList rfl
    simp [Scene.screen, View.replay, View.textAt, htext]
  | .lost none | .guessing r | .answering | .closed => exact Script.legible_nil

end TerminalHost
