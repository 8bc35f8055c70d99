import TerminalHost.Proofs.Game.Transcript
import TerminalHost.Proofs.Session.Laws
import TerminalHost.Proofs.Session.Told

/-!
# A game tells its transcript

Wherever a game stands, it has shown the transcript of a legal history up to its scene.
So a session on any line sends a beginning of such a transcript, and the farewell only
after it has heard that no other round is wanted.
-/

namespace TerminalHost

namespace Options

theorem told_snoc (options : Options) (scenes : List Scene) (scene : Scene) :
    options.told (scenes ++ [scene])
      = options.told scenes ++ (scene.screen options.view).chunks := by
  simp [told]

def scenesBefore (options : Options) (past : List (List Char)) : List Scene :=
  .welcome :: options.rounds 0 past ++ [.opening (options.firstRound past.length)]

end Options

namespace Game

@[simp] theorem words_enter (g : Game) (scene : Scene) : (g.enter scene).words = g.words := by
  cases scene <;> rfl

@[simp] theorem view_enter (g : Game) (scene : Scene) : (g.enter scene).view = g.view := by
  cases scene <;> rfl

@[simp] theorem generator_enter (g : Game) (scene : Scene) :
    (g.enter scene).generator = g.generator := by
  cases scene <;> rfl

theorem screen_enter (g : Game) (scene : Scene) :
    Dialogue.screen (g.enter scene) = scene.screen g.view := by
  show (g.enter scene).scene.screen (g.enter scene).view = _
  rw [scene_enter, view_enter]

/-- A game plays by its options: so many rounds are over, and these letters were guessed in
the present one. -/
structure Plays (options : Options) (past : List (List Char)) (letters : List Char)
    (g : Game) : Prop where
  words : g.words = options.secrets
  view : g.view = options.view
  generator : g.generator
    = (Generator.seeded options.seed).afterPicks options.secrets (past.length + 1)
  rounds {number : Nat} {letters : List Char} (h : past[number]? = some letters) :
    (options.firstRound number).Accepts letters ∧
      ((options.firstRound number).guessAll letters).standing ≠ .inProgress
  accepts : (options.firstRound past.length).Accepts letters

theorem Plays.enter {options : Options} {past : List (List Char)} {letters : List Char}
    {g : Game} (h : Plays options past letters g) (scene : Scene) :
    Plays options past letters (g.enter scene) where
  words := (words_enter g scene).trans h.words
  view := (view_enter g scene).trans h.view
  generator := (generator_enter g scene).trans h.generator
  rounds := h.rounds
  accepts := h.accepts

theorem Plays.store {options : Options} {past : List (List Char)} {letters : List Char}
    {g : Game} (h : Plays options past letters g) (r : Round) :
    Plays options past letters (g.store r) :=
  ⟨h.words, h.view, h.generator, h.rounds, h.accepts⟩

/-- The scenes of a round in which `letters` have been guessed, so that it stands at `r`,
each with what the round has shown by then. -/
inductive At (first : Round) (letters : List Char) (r : Round) :
    Scene → List Scene → Prop where
  | opening (h : letters = []) : At first letters r (.opening first) []
  | board (h : r.standing ≠ .lost) :
    At first letters r (.board r) (first.asked letters ++ [.board r])
  | prompt (h : r.standing = .inProgress) :
    At first letters r (.prompt r) (first.asked letters ++ [.board r, .prompt r])
  | guessing (h : r.standing = .inProgress) :
    At first letters r (.guessing r) (first.asked letters ++ [.board r, .prompt r])
  | echo (h : r.standing = .inProgress) {letter : Char}
      (hletter : Text.isLetter letter = true) :
    At first letters r (.echo r letter)
      (first.asked letters ++ [.board r, .prompt r, .echo r letter])
  | won (h : r.standing = .won) :
    At first letters r .won (first.asked letters ++ [.board r, .won])
  | lost (h : r.standing = .lost) :
    At first letters r (.lost (some r)) (first.asked letters ++ [.lost (some r)])
  | replay (h : r.standing ≠ .inProgress) :
    At first letters r .replay (first.asked letters ++ r.last)
  | answering (h : r.standing ≠ .inProgress) :
    At first letters r .answering (first.asked letters ++ r.last)

inductive Stands (options : Options) (g : Game) (log : List Exchange) : Prop where
  | welcome (hgame : g = Game.start options)
      (hlog : Exchange.chunks log = options.told [.welcome])
  | round {past : List (List Char)} {letters : List Char} {shown : List Scene}
      (hplays : Plays options past letters g)
      (hat : At (options.firstRound past.length) letters
        ((options.firstRound past.length).guessAll letters) g.scene shown)
      (hlog : Exchange.chunks log = options.told (options.scenesBefore past ++ shown))
  | refused {past : List (List Char)} {letters : List Char}
      (hplays : Plays options past letters g)
      (hover : ((options.firstRound past.length).guessAll letters).standing ≠ .inProgress)
      (hscene : g.scene = .farewell ∨ g.scene = .closed)
      (hlog : Exchange.chunks log
        = options.told (options.scenesBefore past
            ++ (options.firstRound past.length).scenes letters) ++ View.farewell.chunks)
      (hno : ∃ before heard after, log = before ++ .heard heard :: after ∧
        Keys.firstReply? heard = some .no ∧
        Exchange.chunks before = options.told (options.scenesBefore past
          ++ (options.firstRound past.length).scenes letters))

variable {options : Options} {past : List (List Char)} {letters : List Char} {g : Game}
variable {log : List Exchange} {shown : List Scene} {scene : Scene}

theorem Stands.enter (hplays : Plays options past letters g)
    (hlog : Exchange.chunks log = options.told (options.scenesBefore past ++ shown))
    (hat : At (options.firstRound past.length) letters
      ((options.firstRound past.length).guessAll letters) scene (shown ++ [scene])) :
    Stands options (g.enter scene)
      (log ++ (Dialogue.screen (g.enter scene)).exchanges) := by
  refine .round (hplays.enter scene) (by rwa [scene_enter]) ?_
  rw [screen_enter, Exchange.chunks_append, Exchange.chunks_exchanges, hlog, hplays.view,
    ← List.append_assoc, options.told_snoc]

theorem Stands.enter_silent (hplays : Plays options past letters g)
    (hlog : Exchange.chunks log = options.told (options.scenesBefore past ++ shown))
    (hat : At (options.firstRound past.length) letters
      ((options.firstRound past.length).guessAll letters) scene shown)
    (hsilent : scene.screen g.view = []) :
    Stands options (g.enter scene)
      (log ++ (Dialogue.screen (g.enter scene)).exchanges) := by
  refine .round (hplays.enter scene) (by rwa [scene_enter]) ?_
  rw [screen_enter, hsilent, Script.exchanges_nil, List.append_nil, hlog]

theorem Plays.guess (h : Plays options past letters g) {letter : Char}
    (hletter : Text.isLetter letter = true)
    (hstanding : ((options.firstRound past.length).guessAll letters).standing
      = .inProgress) : Plays options past (letters ++ [letter]) g where
  words := h.words
  view := h.view
  generator := h.generator
  rounds := h.rounds
  accepts := Round.accepts_append.mpr ⟨h.accepts, hletter, hstanding, trivial⟩

theorem plays_newRound_start : Plays options [] [] (Game.start options).newRound where
  words := rfl
  view := rfl
  generator := rfl
  rounds h := by simp at h
  accepts := trivial

theorem Plays.newRound (h : Plays options past letters g)
    (hover : ((options.firstRound past.length).guessAll letters).standing ≠ .inProgress) :
    Plays options (past ++ [letters]) [] g.newRound where
  words := h.words
  view := h.view
  generator := by
    show (g.generator.pick g.words).2 = _
    rw [h.generator, h.words, List.length_append]
    rfl
  rounds {number letters'} hnumber := by
    by_cases hpast : number < past.length
    · rw [List.getElem?_append_left hpast] at hnumber
      exact h.rounds hnumber
    · rw [List.getElem?_append_right (Nat.le_of_not_lt hpast), List.getElem?_singleton]
        at hnumber
      split at hnumber
      · rename_i hzero
        have hlast : number = past.length := by omega
        rw [Option.some.injEq] at hnumber
        rw [hlast, ← hnumber]
        exact ⟨h.accepts, hover⟩
      · simp at hnumber
  accepts := trivial

theorem Plays.scene_newRound (h : Plays options past letters g) :
    g.newRound.scene = .opening (options.firstRound (past.length + 1)) := by
  rw [Game.scene_newRound, h.generator, h.words]
  rfl

/-- Another round shows an empty screen after all that was shown of the rounds before. -/
theorem Stands.newRound (hplays : Plays options past letters g)
    (hover : ((options.firstRound past.length).guessAll letters).standing ≠ .inProgress)
    (hlog : Exchange.chunks log = options.told (options.scenesBefore past
      ++ (options.firstRound past.length).scenes letters)) :
    Stands options g.newRound (log ++ (Dialogue.screen g.newRound).exchanges) := by
  have hlength : (past ++ [letters]).length = past.length + 1 := by simp
  have hscene := hplays.scene_newRound
  rw [← hlength] at hscene
  have hscreen : Dialogue.screen g.newRound
      = (Scene.opening (options.firstRound (past ++ [letters]).length)).screen
          options.view := by
    show g.newRound.scene.screen g.newRound.view = _
    rw [hscene]
    rfl
  have hbefore : options.scenesBefore (past ++ [letters]) ++ []
      = options.scenesBefore past ++ (options.firstRound past.length).scenes letters
        ++ [.opening (options.firstRound (past ++ [letters]).length)] := by
    simp [Options.scenesBefore, Options.rounds_append, Options.rounds]
  have hshown : Exchange.chunks (log ++ (Dialogue.screen g.newRound).exchanges)
      = options.told (options.scenesBefore (past ++ [letters]) ++ []) := by
    rw [hscreen, Exchange.chunks_append, Exchange.chunks_exchanges, hlog, hbefore,
      options.told_snoc]
  refine .round (hplays.newRound hover) ?_ hshown
  rw [hscene]
  exact .opening rfl

/-! ## Going on and hearing -/

theorem Stands.go (h : Stands options g log) {next : Game} (hcue : g.cue = .go next) :
    Stands options next (log ++ (Dialogue.screen next).exchanges) := by
  cases h with
  | welcome hgame hlog =>
    subst hgame
    have hnext : (Game.start options).newRound = next := Cue.go.inj hcue
    subst hnext
    refine .round plays_newRound_start (.opening rfl) ?_
    rw [Exchange.chunks_append, Exchange.chunks_exchanges, hlog, List.append_nil]
    exact (options.told_snoc _ _).symm
  | @round past letters shown hplays hat hlog =>
    generalize hscene : g.scene = scene at hat
    generalize hround : (options.firstRound past.length).guessAll letters = r at hat
    simp only [cue, hscene] at hcue
    cases hat with
    | opening hnil =>
      subst hnil
      obtain rfl := Cue.go.inj hcue
      refine .enter hplays hlog ?_
      exact .board (Round.standing_start_ne_lost _)
    | board hstanding =>
      obtain rfl := Cue.go.inj hcue
      unfold afterBoard
      by_cases hwon : r.standing = .won
      · rw [if_pos hwon]
        refine .enter (hplays.store r) hlog ?_
        rw [hround, List.append_assoc]
        exact .won hwon
      · rw [if_neg hwon]
        have hprogress : r.standing = .inProgress := by
          cases hcases : r.standing <;> simp_all
        refine .enter hplays hlog ?_
        rw [hround, List.append_assoc]
        exact .prompt hprogress
    | prompt hstanding =>
      obtain rfl := Cue.go.inj hcue
      refine .enter_silent hplays hlog ?_ rfl
      rw [hround]
      exact .guessing hstanding
    | guessing hstanding => simp at hcue
    | @echo hstanding letter hletter =>
      obtain rfl := Cue.go.inj hcue
      have hplays' := hplays.guess hletter (hround ▸ hstanding)
      have hround' : (options.firstRound past.length).guessAll (letters ++ [letter])
          = (r.guess letter).2 := by
        rw [Round.guessAll_append, hround]
        rfl
      have hasked : (options.firstRound past.length).asked (letters ++ [letter])
          = (options.firstRound past.length).asked letters
            ++ [.board r, .prompt r, .echo r letter] := by
        rw [Round.asked_append, hround]
        rfl
      rw [← hasked] at hlog
      unfold settle
      by_cases hlost : (r.guess letter).2.standing = .lost
      · simp only [if_pos hlost]
        refine .enter (hplays'.store _) hlog ?_
        rw [hround']
        exact .lost hlost
      · simp only [if_neg hlost]
        refine .enter hplays' hlog ?_
        rw [hround']
        exact .board hlost
    | won hstanding =>
      obtain rfl := Cue.go.inj hcue
      have hlast : r.last = [.board r, .won] ++ [.replay] := by
        simp [Round.last, hstanding]
      refine .enter hplays hlog ?_
      rw [hround, List.append_assoc, ← hlast]
      exact .replay (by simp [hstanding])
    | lost hstanding =>
      obtain rfl := Cue.go.inj hcue
      have hlast : r.last = [.lost (some r)] ++ [.replay] := by
        simp [Round.last, hstanding]
      refine .enter hplays hlog ?_
      rw [hround, List.append_assoc, ← hlast]
      exact .replay (by simp [hstanding])
    | replay hstanding =>
      obtain rfl := Cue.go.inj hcue
      refine .enter_silent hplays hlog ?_ rfl
      rw [hround]
      exact .answering hstanding
    | answering hstanding => simp at hcue
  | refused hplays hover hscene hlog hno =>
    obtain hfarewell | hclosed := hscene
    · simp only [cue, hfarewell] at hcue
      obtain rfl := Cue.go.inj hcue
      have hsilent : Dialogue.screen (g.enter .closed) = [] := rfl
      rw [hsilent, Script.exchanges_nil, List.append_nil]
      exact .refused (hplays.enter .closed) hover (.inr rfl) hlog hno
    · simp [cue, hclosed] at hcue

theorem Stands.stay (hplays : Plays options past letters g)
    (hlog : Exchange.chunks log = options.told (options.scenesBefore past ++ shown))
    (hat : At (options.firstRound past.length) letters
      ((options.firstRound past.length).guessAll letters) g.scene shown)
    (hsilent : g.scene.screen g.view = []) :
    Stands options g (log ++ (Dialogue.screen g).exchanges) := by
  refine .round hplays hat ?_
  show Exchange.chunks (log ++ (g.scene.screen g.view).exchanges) = _
  rw [hsilent, Script.exchanges_nil, List.append_nil, hlog]

theorem Stands.refuse (hplays : Plays options past letters g)
    (hover : ((options.firstRound past.length).guessAll letters).standing ≠ .inProgress)
    (hlog : Exchange.chunks log = options.told (options.scenesBefore past
      ++ (options.firstRound past.length).scenes letters))
    {octets : Bytes} (hno : Keys.firstReply? octets = some .no) :
    Stands options (g.enter .farewell)
      (log ++ .heard octets :: (Dialogue.screen (g.enter .farewell)).exchanges) := by
  refine .refused (hplays.enter .farewell) hover (.inl rfl) ?_
    ⟨log, octets, _, rfl, hno, hlog⟩
  rw [Exchange.chunks_append, Exchange.chunks_heard, Exchange.chunks_exchanges, hlog]
  rfl

theorem Stands.hear (h : Stands options g log) {hear : Bytes → Game}
    (hcue : g.cue = .listen hear) (octets : Bytes) :
    Stands options (hear octets)
      (log ++ .heard octets :: (Dialogue.screen (hear octets)).exchanges) := by
  cases h with
  | welcome hgame hlog =>
    subst hgame
    simp [cue, Game.start] at hcue
  | @round past letters shown hplays hat hlog =>
    have hheard : Exchange.chunks (log ++ [.heard octets])
        = options.told (options.scenesBefore past ++ shown) := by
      rw [Exchange.chunks_append, Exchange.chunks_heard, hlog]
      exact List.append_nil _
    have hsplit (next : Game) :
        log ++ .heard octets :: (Dialogue.screen next).exchanges
          = log ++ [.heard octets] ++ (Dialogue.screen next).exchanges := by
      rw [List.append_assoc]
      rfl
    generalize hscene : g.scene = scene at hat
    generalize hround : (options.firstRound past.length).guessAll letters = r at hat
    simp only [cue, hscene] at hcue
    cases hat with
    | guessing hstanding =>
      obtain rfl := Cue.listen.inj hcue
      rw [hsplit]
      unfold hearLetter
      split
      · rename_i letter hletter
        refine .enter hplays hheard ?_
        rw [hround, List.append_assoc]
        exact .echo hstanding (Keys.isLetter_of_firstLetter? hletter)
      · refine .stay hplays hheard ?_ (by rw [hscene]; rfl)
        rw [hround, hscene]
        exact .guessing hstanding
    | answering hstanding =>
      obtain rfl := Cue.listen.inj hcue
      have hover : ((options.firstRound past.length).guessAll letters).standing
          ≠ .inProgress := hround.symm ▸ hstanding
      rw [← hround] at hlog hheard
      unfold hearAnswer
      split
      · rw [hsplit]
        exact .newRound hplays hover hheard
      · rename_i hno
        exact .refuse hplays hover hlog hno
      · rw [hsplit]
        refine .stay hplays hheard ?_ (by rw [hscene]; rfl)
        rw [hscene]
        exact .answering hover
    | _ => simp at hcue
  | refused hplays hover hscene hlog hno =>
    obtain hfarewell | hclosed := hscene
    · simp [cue, hfarewell] at hcue
    · simp [cue, hclosed] at hcue

/-- Wherever the tale of a game has come to, the game stands there. -/
theorem stands_of_told (h : Told (Game.start options) g log) : Stands options g log := by
  induction h with
  | begun => exact .welcome rfl (by simp [Options.told]; rfl)
  | went h hcue ih => exact ih.go hcue
  | heard h hcue octets ih => exact ih.hear hcue octets

/-- What a round has shown is the beginning of what it shows with some legal letters. -/
theorem At.exists_scenes {first : Round} {r : Round} (hat : At first letters r scene shown)
    (hr : first.guessAll letters = r) (haccepts : first.Accepts letters) :
    ∃ letters', first.Accepts letters' ∧ shown <+: first.scenes letters' := by
  have hasked (more : List Scene) (h : more <+: r.last) :
      first.asked letters ++ more <+: first.scenes letters := by
    rw [Round.scenes, hr]
    exact (List.prefix_append_right_inj _).mpr h
  cases hat with
  | opening hnil => exact ⟨letters, haccepts, List.nil_prefix⟩
  | board hstanding =>
    refine ⟨letters, haccepts, hasked _ ?_⟩
    cases hcases : r.standing with
    | inProgress => simp [Round.last, hcases]
    | won => simp [Round.last, hcases]
    | lost => exact absurd hcases hstanding
  | prompt hstanding =>
    exact ⟨letters, haccepts, hasked _ (by simp [Round.last, hstanding])⟩
  | guessing hstanding =>
    exact ⟨letters, haccepts, hasked _ (by simp [Round.last, hstanding])⟩
  | @echo hstanding letter hletter =>
    refine ⟨letters ++ [letter], ?_, ?_⟩
    · rw [Round.accepts_append, hr]
      exact ⟨haccepts, hletter, hstanding, trivial⟩
    · rw [Round.scenes, Round.asked_append, hr]
      exact List.prefix_append _ _
  | won hstanding =>
    exact ⟨letters, haccepts, hasked _ (by simp [Round.last, hstanding])⟩
  | lost hstanding =>
    exact ⟨letters, haccepts, hasked _ (by simp [Round.last, hstanding])⟩
  | replay hstanding => exact ⟨letters, haccepts, hasked _ (List.prefix_refl _)⟩
  | answering hstanding => exact ⟨letters, haccepts, hasked _ (List.prefix_refl _)⟩

theorem scenes_of_present (options : Options) (past : List (List Char))
    (letters : List Char) (refused : Bool) :
    (History.mk past (some letters) refused).scenes options
      = options.scenesBefore past ++ (options.firstRound past.length).scenes letters := by
  simp [History.scenes, Options.scenesBefore, Options.rounds_append, Options.rounds]

theorem Plays.legal (h : Plays options past letters g) {letters' : List Char}
    (haccepts : (options.firstRound past.length).Accepts letters') {refused : Bool}
    (hrefused : refused = true →
      ((options.firstRound past.length).guessAll letters').standing ≠ .inProgress) :
    (History.mk past (some letters') refused).Legal options where
  past hpast := h.rounds hpast
  present hpresent := Option.some.inj hpresent ▸ haccepts
  begun hbegun := by simp at hbegun
  refused hrefuse := ⟨letters', rfl, hrefused hrefuse⟩

theorem Stands.exists_history (h : Stands options g log) :
    ∃ history : History, history.Legal options ∧
      Exchange.chunks log <+: history.chunks options ∧
      (history.refused = true → ∃ before heard after,
        log = before ++ .heard heard :: after ∧ Keys.firstReply? heard = some .no ∧
        Exchange.chunks before = { history with refused := false }.chunks options) := by
  cases h with
  | welcome hgame hlog =>
    refine ⟨⟨[], none, false⟩, ⟨by simp, by simp, by simp, by simp⟩, ?_, by simp⟩
    rw [hlog]
    exact List.prefix_append _ _
  | @round past letters shown hplays hat hlog =>
    obtain ⟨letters', haccepts, later, hlater⟩ := hat.exists_scenes rfl hplays.accepts
    refine ⟨⟨past, some letters', false⟩, hplays.legal haccepts (by simp), ?_, by simp⟩
    rw [hlog, History.chunks, scenes_of_present, ← hlater, ← List.append_assoc,
      options.told_append _ later, List.append_assoc]
    exact List.prefix_append _ _
  | @refused past letters hplays hover hscene hlog hno =>
    refine ⟨⟨past, some letters, true⟩, hplays.legal hplays.accepts fun _ => hover, ?_, ?_⟩
    · have hall : Exchange.chunks log
          = (History.mk past (some letters) true).chunks options := by
        rw [hlog, History.chunks, scenes_of_present, if_pos rfl]
      exact hall ▸ List.prefix_refl _
    · intro _
      obtain ⟨before, heard, after, hsplit, hreply, hbefore⟩ := hno
      refine ⟨before, heard, after, hsplit, hreply, ?_⟩
      rw [hbefore, History.chunks, scenes_of_present]
      exact (List.append_nil _).symm

/-- A game that echoes a letter takes it as a guess. -/
theorem Stands.guess_ne_rejected (h : Stands options g log) {r : Round} {letter : Char}
    (hscene : g.scene = .echo r letter) : (r.guess letter).1 ≠ .rejected := by
  cases h with
  | welcome hgame hlog =>
    subst hgame
    cases hscene
  | round hplays hat hlog =>
    rw [hscene] at hat
    cases hat with
    | echo hstanding hletter => exact Round.guess_ne_rejected hletter hstanding
  | refused hplays hover hscene' hlog hno =>
    obtain hfarewell | hclosed := hscene'
    · rw [hscene] at hfarewell
      cases hfarewell
    · rw [hscene] at hclosed
      cases hclosed

end Game

/-- **A game sends its transcript.**  Whatever the line answers, and wherever the session
breaks off, the chunks it sends are a beginning of the transcript of a legal history, and
the farewell comes only after an answer that says no.  Every board of the transcript shows
the round that the letters echoed since its beginning lead to, with one to six attempts
left, and no letter that is echoed is rejected as a guess. -/
theorem exists_history_of_log {ℓ : Type} [Line ℓ] (options : Options) (limit : Option Nat)
    (patience : Nat) (line : ℓ) :
    (∃ history : History, history.Legal options ∧
      Exchange.chunks (Program.game.log options limit patience line)
        <+: history.chunks options ∧
      (history.refused = true → ∃ before heard after,
        Program.game.log options limit patience line = before ++ .heard heard :: after ∧
        Keys.firstReply? heard = some .no ∧
        Exchange.chunks before = { history with refused := false }.chunks options) ∧
      (∀ before r after, history.scenes options = before ++ .board r :: after →
        r = options.roundOf (Scene.tally before) ∧ 1 ≤ r.attempts ∧ r.attempts ≤ 6) ∧
      (∀ before r letter after, history.scenes options = before ++ .echo r letter :: after →
        r = options.roundOf (Scene.tally before) ∧ (r.guess letter).1 ≠ .rejected)) ∧
    (∀ count r letter,
      ((Run.begin (Game.start options) (Tapped.tap line) 0).steps options.pacing
        count).state.scene = .echo r letter → (r.guess letter).1 ≠ .rejected) ∧
    (∀ number, ∃ word ∈ options.secrets, options.pick? number = some word ∧
      options.firstRound number = Round.start word) ∧
    Program.game.run options limit patience line
      = { Program.game.run options limit patience (Tapped.tap line) with
          line := (Program.game.run options limit patience (Tapped.tap line)).line.line } := by
  refine ⟨?_, fun count r letter hscene => ?_, fun number => ?_,
    Program.game.run_tap options limit patience line⟩
  · obtain ⟨g, left, htold⟩ := Program.exists_told options limit patience line
    obtain ⟨history, hlegal, hchunks, hrefused⟩ := (Game.stands_of_told htold).exists_history
    rw [Exchange.chunks_append] at hchunks
    refine ⟨history, hlegal, (List.prefix_append _ _).trans hchunks, fun hrefuse => ?_,
      fun before r after hscenes => hlegal.fits hscenes,
      fun before r letter after hscenes => hlegal.fits hscenes⟩
    obtain ⟨before, heard, after, hsplit, hreply, hbefore⟩ := hrefused hrefuse
    obtain ⟨between, hbetween⟩ := Exchange.exists_of_append hsplit
    exact ⟨before, heard, between, hbetween, hreply, hbefore⟩
  · obtain ⟨log, htold⟩ :=
      (Run.tells_steps options.pacing (Game.start options) line count).exists_state
    exact (Game.stands_of_told htold).guess_ne_rejected hscene
  · obtain ⟨word, hmem, hpick⟩ := options.exists_pick? number
    refine ⟨word, hmem, hpick, ?_⟩
    rw [Options.firstRound, hpick, Option.getD_some]

end TerminalHost
