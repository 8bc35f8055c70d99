import TerminalHost.Proofs.Game.Phases
import TerminalHost.Proofs.Session.Unhindered

/-!
# Another round

A player who wants another round finds the game as it was after the welcome, but for the
results counted so far.  So two sessions, of which the first leaves its player at the
question for another round, can be played as one: the keys of the first, a yes, and the
keys of the second show what the two show, without the second welcome.

The long session is followed twice.  Up to the question it is in step with the first
session, with more in its queue.  From the new round on it is in step with the second
one, which has just shown its welcome.
-/

namespace TerminalHost

/-! ## A game beside a fresh one -/

theorem Generator.pick_singleton {α : Type} (generator : Generator) (item : α) :
    (generator.pick [item]).1 = some item := by
  have hlt := generator.drawBelow_lt 1 (by decide)
  have hindex : (generator.drawBelow 1).1.toNat = 0 := by
    rw [UInt32.lt_iff_toNat_lt, UInt32.toNat_one] at hlt
    omega
  show [item][(generator.drawBelow 1).1.toNat]? = some item
  rw [hindex]
  rfl

namespace Game

/-- Two games on one word, in one scene, of which `g` has counted more results. -/
structure Beside (word : String) (won lost : UInt32) (g fresh : Game) : Prop where
  scene : g.scene = fresh.scene
  view : g.view = fresh.view
  words : g.words = [word]
  words_fresh : fresh.words = [word]
  won : g.won = won + fresh.won
  lost : g.lost = lost + fresh.lost

variable {word : String} {won lost : UInt32} {g fresh : Game}

theorem scene_newRound_of_words (h : g.words = [word]) :
    g.newRound.scene = .opening (Round.start word) := by
  rw [scene_newRound, h, Generator.pick_singleton]
  rfl

theorem Beside.enter (h : Beside word won lost g fresh) (scene : Scene) :
    Beside word won lost (g.enter scene) (fresh.enter scene) := by
  have hview := h.view
  have hwords := h.words
  have hwords_fresh := h.words_fresh
  have hwon := h.won
  have hlost := h.lost
  cases scene with
  | won =>
    refine ⟨rfl, hview, hwords, hwords_fresh, ?_, hlost⟩
    show g.won + 1 = won + (fresh.won + 1)
    rw [hwon, UInt32.add_assoc]
  | lost stored =>
    refine ⟨rfl, hview, hwords, hwords_fresh, hwon, ?_⟩
    show g.lost + 1 = lost + (fresh.lost + 1)
    rw [hlost, UInt32.add_assoc]
  | _ => exact ⟨rfl, hview, hwords, hwords_fresh, hwon, hlost⟩

theorem Beside.store (h : Beside word won lost g fresh) (r : Round) :
    Beside word won lost (g.store r) (fresh.store r) :=
  ⟨h.scene, h.view, h.words, h.words_fresh, h.won, h.lost⟩

/-- A new round forgets everything but the word and the results. -/
theorem Beside.newRound (hview : g.view = fresh.view) (hwords : g.words = [word])
    (hwords_fresh : fresh.words = [word]) (hwon : g.won = won + fresh.won)
    (hlost : g.lost = lost + fresh.lost) :
    Beside word won lost g.newRound fresh.newRound where
  scene := by rw [scene_newRound_of_words hwords, scene_newRound_of_words hwords_fresh]
  view := hview
  words := hwords
  words_fresh := hwords_fresh
  won := hwon
  lost := hlost

theorem Beside.hearLetter (h : Beside word won lost g fresh) (r : Round) (heard : Bytes) :
    Beside word won lost (g.hearLetter r heard) (fresh.hearLetter r heard) := by
  unfold Game.hearLetter
  split
  · exact h.enter _
  · exact h

theorem Beside.hearAnswer (h : Beside word won lost g fresh) (heard : Bytes) :
    Beside word won lost (g.hearAnswer heard) (fresh.hearAnswer heard) := by
  unfold Game.hearAnswer
  split
  · exact .newRound h.view h.words h.words_fresh h.won h.lost
  · exact h.enter _
  · exact h

theorem Beside.afterBoard (h : Beside word won lost g fresh) (r : Round) :
    Beside word won lost (g.afterBoard r) (fresh.afterBoard r) := by
  unfold Game.afterBoard
  split
  · exact (h.store r).enter _
  · exact h.enter _

theorem Beside.settle (h : Beside word won lost g fresh) (r : Round) (letter : Char) :
    Beside word won lost (g.settle r letter) (fresh.settle r letter) := by
  unfold Game.settle
  by_cases hlost : (r.guess letter).2.standing = .lost
  · simp only [if_pos hlost]
    exact (h.store _).enter _
  · simp only [if_neg hlost]
    exact h.enter _

theorem Beside.cue (h : Beside word won lost g fresh) :
    Cue.Alike (Beside word won lost) g.cue fresh.cue := by
  simp only [Game.cue, h.scene]
  cases fresh.scene with
  | welcome => exact .go (.newRound h.view h.words h.words_fresh h.won h.lost)
  | guessing r => exact .listen (h.hearLetter r)
  | answering => exact .listen h.hearAnswer
  | board r => exact .go (h.afterBoard r)
  | echo r letter => exact .go (h.settle r letter)
  | closed => exact .ended
  | _ => exact .go (h.enter _)

theorem alike_beside : Dialogue.Alike (Beside word won lost) where
  screen {g fresh} h := by
    show g.scene.screen g.view = fresh.scene.screen fresh.view
    rw [h.scene, h.view]
  cue h := h.cue

end Game

theorem Run.InStep.exists_steps_beside {word : String} {won lost : UInt32}
    {left right : List Bytes} {late : Int} {r q : Run Game Recorded}
    (h : InStep (Game.Beside word won lost) (Recorded.Abreast Eq left right) late r q)
    (pacing : Pacing) (many : Nat) :
    ∃ count, InStep (Game.Beside word won lost) (Recorded.Abreast Eq left right) late
      (r.steps pacing count) (q.steps pacing many) := by
  apply h.exists_steps Game.alike_beside pacing many
  rintro few - s hs ⟨hagenda, hear, hcue⟩ hopen
  refine ⟨1, ?_⟩
  obtain ⟨hear', hcue', hhear⟩ := Game.alike_beside.exists_listen hs.state hcue
  apply hs.step_listen pacing hagenda hcue' hcue hopen
  · rw [hs.line.queue]
    cases (Recorded.take 1 (q.steps pacing few).line.queue).1 with
    | ok octets => exact .octets (hhear octets)
    | error loss => exact .lost loss
  · rw [hs.line.queue]

/-! ## The question for another round -/

namespace Game

theorem words_view_of_leads {g next : Game} (h : Dialogue.Leads g next) :
    next.words = g.words ∧ next.view = g.view := by
  cases successor_of_leads h with
  | @entered scene hleads => cases scene <;> exact ⟨rfl, rfl⟩
  | @ended r scene hends => cases scene <;> exact ⟨rfl, rfl⟩
  | began hscene => exact ⟨rfl, rfl⟩
  | stayed hscene => exact ⟨rfl, rfl⟩

theorem words_view_steps (pacing : Pacing) (start : Game) (line : Recorded) (count : Nat) :
    ((Run.begin start line 0).steps pacing count).state.words = start.words ∧
      ((Run.begin start line 0).steps pacing count).state.view = start.view := by
  apply Run.course_induction pacing
    (fun (_ : List Game) (g : Game) => g.words = start.words ∧ g.view = start.view)
  · exact Run.led_begin start line 0
  · exact ⟨rfl, rfl⟩
  · intro states g next hg hleads
    obtain ⟨hwords, hview⟩ := words_view_of_leads hleads
    exact ⟨hwords.trans hg.1, hview.trans hg.2⟩

theorem hear_yes {g : Game} {hear : Bytes → Game} (hcue : g.cue = .listen hear)
    (hphase : g.phase = .replayPrompt) {answer : UInt8}
    (hanswer : answer = 0x59 ∨ answer = 0x79) : hear [answer] = g.newRound := by
  obtain ⟨r, hscene, -⟩ | ⟨-, rfl⟩ := exists_of_listen hcue
  · simp [phase, hscene, Scene.phase] at hphase
  · have hyes : Keys.firstReply? [answer] = some .yes := by
      rcases hanswer with rfl | rfl <;> rfl
    simp only [hearAnswer, hyes]

end Game

/-- A game that has lost its player stood at a question before, with all its chunks sent. -/
theorem Run.exists_question (pacing : Pacing) (start : Game) (octets : Bytes) {count : Nat}
    {won lost : UInt32} {last : Phase} {cause : Loss}
    (hreport : ((begin start (Recorded.ofBytes octets) 0).steps pacing count).report?
      = some (.game won lost last (some cause))) :
    ∃ before g hear, g.cue = .listen hear ∧ g.won = won ∧ g.lost = lost ∧ g.phase = last ∧
      Stands g [] []
        ((begin start (Recorded.ofBytes octets) 0).steps pacing count).line.chunks
        ((begin start (Recorded.ofBytes octets) 0).steps pacing before) := by
  obtain ⟨before, loss, hlast, htalking, hline, hwhy⟩ := exists_last_of_report? rfl hreport
  have hunhindered := unhindered_steps pacing start octets before
  rw [hline, steps_succ]
  refine ⟨before, ?_⟩
  generalize (begin start (Recorded.ofBytes octets) 0).steps pacing before = r at *
  obtain ⟨hwon, hlost, hphase, rfl⟩ := Report.game.inj hlast
  rcases hwhy with ⟨other, -, hfails⟩ | ⟨hnone, -⟩
  · obtain ⟨⟨hagenda, hear, hcue⟩, hholds⟩ := hunhindered.of_fails htalking hfails
    obtain ⟨line, hreceive, -, hlatest⟩ := hholds.receive_nil r.now
    have hunheard : r.step pacing = _ := (Move.unheard hagenda hcue hreceive).step_eq
    refine ⟨r.state, hear, hcue, hwon, hlost, hphase, rfl, hagenda, hholds, ?_⟩
    rw [hunheard]
    exact congrArg List.reverse hlatest.symm
  · cases hnone

namespace Run

theorem exists_fresh_round (pacing : Pacing) (options : Options) (octets : Bytes) :
    ∃ count, Stands (Game.start options).newRound
      (Dialogue.screen (Game.start options).newRound) octets View.welcome.chunks
      ((begin (Game.start options) (Recorded.ofBytes octets) 0).steps pacing count) := by
  have hbegin : Stands (Game.start options) View.welcome octets []
      (begin (Game.start options) (Recorded.ofBytes octets) 0) :=
    ⟨rfl, rfl, ⟨rfl, rfl, rfl⟩, rfl⟩
  have hcue : Dialogue.cue (Game.start options) = .go (Game.start options).newRound := rfl
  exact hbegin.exists_go pacing hcue

/-- The session that goes on after a question gets there too, hears the yes and begins a
round, with the rest of its queue still to come. -/
theorem exists_next_round (pacing : Pacing) (later : Bytes) {start g : Game}
    {hear : Bytes → Game} {answer : UInt8} {earlier : Bytes} {chunks : List Bytes}
    {before : Nat}
    (hcue : g.cue = .listen hear) (hphase : g.phase = .replayPrompt)
    (hanswer : answer = 0x59 ∨ answer = 0x79)
    (h : Stands g [] [] chunks
      ((begin start (Recorded.ofBytes earlier) 0).steps pacing before)) :
    ∃ count, Stands g.newRound (Dialogue.screen g.newRound) later chunks
      ((begin start (Recorded.ofBytes (earlier ++ answer :: later)) 0).steps pacing
        count) := by
  obtain ⟨count, hstands⟩ := h.exists_append pacing (answer :: later)
  have hheard := hstands.steps_hear pacing hcue
  rw [Game.hear_yes hcue hphase hanswer] at hheard
  exact ⟨count + 2, by rwa [steps_add]⟩

end Run

theorem Program.returns_of_done {options : Options} {line : Recorded} {few more : Nat}
    {loss : Option Loss} {r : Run Game Recorded}
    (hr : ((Run.begin (Game.start options) line 0).steps options.pacing few).steps
      options.pacing more = r) (hdone : r.agenda = .done loss) :
    Program.game.Returns options line r.outcome := by
  have hreport := congrArg Option.isSome (Run.report?_of_done hdone)
  rw [← hr, ← Run.steps_add] at hreport ⊢
  exact returns_of_steps (fun _ _ => rfl) hreport

theorem Program.exists_returns_of_report? {options : Options} {line : Recorded}
    {count : Nat} {report : Report}
    (h : ((Run.begin (Game.start options) line 0).steps options.pacing count).report?
      = some report) :
    ∃ outcome, Program.game.Returns options line outcome ∧ outcome.report = some report :=
  ⟨_, returns_of_steps (fun _ _ => rfl) (congrArg Option.isSome h), h⟩

/-- **A round leaves nothing behind but its result.**  A session that is lost at the
question for another round, a yes, and a second session make one session: it sends what
the first one sends and then what the second one sends after its welcome, ends as the
second one ends, and counts the results of both. -/
theorem exists_returns_replay {options : Options} {word : String}
    (hwords : options.words = [word]) (earlier later : Bytes) {answer : UInt8}
    (hanswer : answer = 0x59 ∨ answer = 0x79) {first : Outcome Recorded}
    (hfirst : Program.game.Returns options (Recorded.ofBytes earlier) first)
    {won lost : UInt32}
    (hreport : first.report = some (.game won lost .replayPrompt (some .peerClosed))) :
    ∃ second both rest won' lost' last loss,
      Program.game.Returns options (Recorded.ofBytes later) second ∧
      second.report = some (.game won' lost' last loss) ∧
      second.line.chunks = View.welcome.chunks ++ rest ∧
      Program.game.Returns options (Recorded.ofBytes (earlier ++ answer :: later)) both ∧
      both.report = some (.game (won + won') (lost + lost') last loss) ∧
      both.line.chunks = first.line.chunks ++ rest := by
  obtain ⟨-, enough, hrun⟩ := hfirst
  obtain ⟨count, hcount⟩ :=
    Program.exists_steps_game options none enough (Recorded.ofBytes earlier)
  rw [hrun enough (Nat.le_refl _)] at hcount
  subst hcount
  obtain ⟨before, g, hear, hcue, hwon, hlost, hphase, hquestion⟩ :=
    Run.exists_question options.pacing (Game.start options) earlier hreport
  obtain ⟨few, hfresh⟩ := Run.exists_fresh_round options.pacing options later
  obtain ⟨many, hnext⟩ :=
    Run.exists_next_round options.pacing later hcue hphase hanswer hquestion
  have hstart : (Game.start options).words = [word] := by
    simp [Game.start, hwords]
  have hkept := Game.words_view_steps options.pacing (Game.start options)
    (Recorded.ofBytes earlier) before
  rw [hquestion.state_eq] at hkept
  have hbeside : Game.Beside word won lost g.newRound (Game.start options).newRound :=
    .newRound hkept.2 (hkept.1.trans hstart) hstart (hwon.trans (UInt32.add_zero won).symm)
      (hlost.trans (UInt32.add_zero lost).symm)
  have hstep := hnext.inStep Game.alike_beside hbeside hfresh
  -- The second session ends by itself, and the long one with it.
  have hstuck : ((Run.begin (Game.start options) (Recorded.ofBytes later) 0).steps
      options.pacing few).agenda ≠ .stuck := by
    simp [hfresh.agenda]
  obtain ⟨loss, hdone⟩ := Run.exists_done options.pacing hstuck (Nat.le_refl _)
  obtain ⟨more, hmore⟩ := hstep.exists_steps_beside options.pacing _
  have hdone' := hmore.agenda_done hdone
  obtain ⟨rest, hboth, hsecond⟩ := hmore.line.sent
  have hstate := hmore.state
  have hlast : Game.phase _ = Game.phase _ := congrArg Scene.phase hstate.scene
  refine ⟨_, _, rest, _, _, _, loss, Program.returns_of_done rfl hdone,
    Run.report?_of_done hdone, hsecond, Program.returns_of_done rfl hdone', ?_, hboth⟩
  rw [← hstate.won, ← hstate.lost, ← hlast]
  exact Run.report?_of_done hdone'

theorem exists_returns_replay_short :
    Options.short.words = ["OX"] ∧
    ∃ first, Program.game.Returns Options.short (Recorded.ofBytes [0x6F, 0x58]) first ∧
      first.report = some (.game 1 0 .replayPrompt (some .peerClosed)) ∧
      ∃ second both rest won lost last loss,
        Program.game.Returns Options.short
          (Recorded.ofBytes [0x41, 0x42, 0x43, 0x44, 0x45, 0x46]) second ∧
        second.report = some (.game won lost last loss) ∧
        second.line.chunks = View.welcome.chunks ++ rest ∧
        Program.game.Returns Options.short
          (Recorded.ofBytes [0x6F, 0x58, 0x79, 0x41, 0x42, 0x43, 0x44, 0x45, 0x46]) both ∧
        both.report = some (.game (1 + won) (0 + lost) last loss) ∧
        both.line.chunks = first.line.chunks ++ rest := by
  have hreport : ((Run.begin (Game.start Options.short) (Recorded.ofBytes [0x6F, 0x58]) 0).steps
      Options.short.pacing 200).report?
        = some (.game 1 0 .replayPrompt (some .peerClosed)) := by
    decide +kernel
  obtain ⟨first, hfirst, hreport⟩ := Program.exists_returns_of_report? hreport
  have hwords : Options.short.words = ["OX"] := rfl
  exact ⟨hwords, first, hfirst, hreport, exists_returns_replay hwords [0x6F, 0x58]
    [0x41, 0x42, 0x43, 0x44, 0x45, 0x46] (.inr rfl) hfirst hreport⟩

end TerminalHost
