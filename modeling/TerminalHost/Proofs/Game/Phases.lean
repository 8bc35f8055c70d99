import Mathlib.Data.List.Chain
import TerminalHost.Line.Recorded
import TerminalHost.Proofs.Game.Rounds
import TerminalHost.Proofs.Session.Course
import TerminalHost.Proofs.Session.Ending
import TerminalHost.Proofs.Session.Laws

/-!
# The phases of a game

A game goes through its phases along the edges of `Phase.next`, and it counts a result
whenever the phase of that result begins.  Each phase begins with one scene, so the phases
can be read off the course of a session.  A session that ends before its farewell stays in
the phase in which a call has failed.
-/

namespace TerminalHost

/-! ## Scenes and phases -/

/-- What a phase tells about the stored round. -/
def Phase.Fits : Phase → Option Round → Prop
  | .welcome, _ | .roundActive, _ | .closed, _ => True
  | .roundWon, round => ∃ r, round = some r ∧ r.standing = .won
  | .roundLost, round => ∃ r, round = some r ∧ r.standing = .lost
  | .replayPrompt, round => ∃ r, round = some r ∧ r.standing ≠ .inProgress

namespace Scene

/-- The phase that begins with a scene, if one does. -/
def begins? : Scene → Option Phase
  | welcome => some .welcome
  | opening _ => some .roundActive
  | won => some .roundWon
  | lost _ => some .roundLost
  | replay => some .replayPrompt
  | closed => some .closed
  | board _ | prompt _ | guessing _ | echo _ _ | answering | farewell => none

def finishes : Scene → Bool
  | board r => r.standing = .won
  | lost _ => true
  | _ => false

/-- How many rounds are over in a scene whose results are still to be shown. -/
def outstanding : Scene → Nat
  | board r => if r.standing = .won then 1 else 0
  | _ => 0

/-- What a game makes of a scene without beginning or ending a round. -/
inductive Leads : Scene → Scene → Prop where
  | board (r : Round) : Leads (.opening r) (.board r)
  | prompt {r : Round} (h : r.standing ≠ .won) : Leads (.board r) (.prompt r)
  | guessing (r : Round) : Leads (.prompt r) (.guessing r)
  | echo (r : Round) {letter : Char} (h : Text.isLetter letter = true) :
    Leads (.guessing r) (.echo r letter)
  | again {r : Round} {letter : Char} (h : (r.guess letter).2.standing ≠ .lost) :
    Leads (.echo r letter) (.board (r.guess letter).2)
  | replayWon : Leads .won .replay
  | replayLost (stored : Option Round) : Leads (.lost stored) .replay
  | answering : Leads .replay .answering
  | farewell : Leads .answering .farewell
  | closed : Leads .farewell .closed

/-- The scene that ends a round, with the round as it ends and the scene of its result. -/
inductive Ends : Scene → Round → Scene → Prop where
  | won {r : Round} (h : r.standing = .won) : Ends (.board r) r .won
  | lost {r : Round} {letter : Char} (h : (r.guess letter).2.standing = .lost) :
    Ends (.echo r letter) (r.guess letter).2 (.lost (some (r.guess letter).2))

variable {s t : Scene} {r : Round}

theorem Leads.phase (h : Leads s t) :
    (t.begins? = none ∧ t.phase = s.phase) ∨
      (t.begins? = some t.phase ∧ t.phase ∈ s.phase.next) := by
  cases h <;> simp [begins?, Scene.phase, Phase.next]

theorem Ends.phase (h : Ends s r t) : t.begins? = some t.phase ∧ t.phase ∈ s.phase.next := by
  cases h <;> simp [begins?, Scene.phase, Phase.next]

/-- Between the ends of two rounds the stored one stays, and it fits all the same. -/
theorem Leads.fits (h : Leads s t) {stored : Option Round} (hfits : s.phase.Fits stored) :
    t.phase.Fits stored := by
  cases h with
  | replayWon =>
    obtain ⟨round, hround, hwon⟩ := hfits
    exact ⟨round, hround, by simp [hwon]⟩
  | replayLost =>
    obtain ⟨round, hround, hlost⟩ := hfits
    exact ⟨round, hround, by simp [hlost]⟩
  | answering => exact hfits
  | farewell => exact hfits
  | _ => trivial

theorem Ends.fits (h : Ends s r t) : t.phase.Fits (some r) := by
  cases h with
  | won hwon => exact ⟨_, rfl, hwon⟩
  | lost hlost => exact ⟨_, rfl, hlost⟩

/-- A round that is over is paid for by the phase of its result. -/
theorem Leads.outstanding (h : Leads s t) :
    (if t.finishes then 1 else 0) + s.outstanding
      = t.begins?.toList.count .roundWon + t.begins?.toList.count .roundLost
        + t.outstanding := by
  cases h with
  | prompt hwon => simp [finishes, Scene.outstanding, begins?, hwon]
  | _ => simp [finishes, Scene.outstanding, begins?]

theorem Ends.outstanding (h : Ends s r t) :
    (if t.finishes then 1 else 0) + s.outstanding
      = t.begins?.toList.count .roundWon + t.begins?.toList.count .roundLost
        + t.outstanding := by
  cases h with
  | won hwon => simp [finishes, Scene.outstanding, begins?, hwon]
  | lost => simp [finishes, Scene.outstanding, begins?]

end Scene

/-! ## The course of a game -/

namespace Game

def phases (states : List Game) : List Phase := states.filterMap fun g => g.scene.begins?

def finished (states : List Game) : Nat := states.countP fun g => g.scene.finishes

/-- A game that has entered some states, and stands in the last one, has kept to its
phases and has counted its results. -/
structure InOrder (states : List Game) (g : Game) : Prop where
  first : (phases states).head? = some .welcome
  last : (phases states).getLast? = some g.phase
  chain : (phases states).IsChain fun before after => after ∈ before.next
  fits : g.phase.Fits g.stored
  won : g.won = UInt32.ofNat ((phases states).count .roundWon)
  lost : g.lost = UInt32.ofNat ((phases states).count .roundLost)
  finished : finished states
    = (phases states).count .roundWon + (phases states).count .roundLost
      + g.scene.outstanding

/-- A state of a game that may follow another one. -/
inductive Successor (g : Game) : Game → Prop where
  | entered {scene : Scene} (h : Scene.Leads g.scene scene) : Successor g (g.enter scene)
  | ended {r : Round} {scene : Scene} (h : Scene.Ends g.scene r scene) :
    Successor g ((g.store r).enter scene)
  | began (h : g.scene = .welcome ∨ g.scene = .answering) : Successor g g.newRound
  /-- What was heard meant nothing. -/
  | stayed (h : (∃ r, g.scene = .guessing r) ∨ g.scene = .answering) : Successor g g

variable {g next : Game}

theorem successor_of_go (hcue : g.cue = .go next) : g.Successor next := by
  cases hscene : g.scene <;> simp only [cue, hscene, Cue.go.injEq, reduceCtorEq] at hcue <;>
    subst hcue
  case welcome => exact .began (.inl hscene)
  case opening r => exact .entered (hscene ▸ .board r)
  case board r =>
    unfold afterBoard
    by_cases hwon : r.standing = .won
    · rw [if_pos hwon]
      exact .ended (hscene ▸ .won hwon)
    · rw [if_neg hwon]
      exact .entered (hscene ▸ .prompt hwon)
  case prompt r => exact .entered (hscene ▸ .guessing r)
  case echo r letter =>
    unfold settle
    by_cases hlost : (r.guess letter).2.standing = .lost
    · simp only [if_pos hlost]
      exact .ended (hscene ▸ .lost hlost)
    · simp only [if_neg hlost]
      exact .entered (hscene ▸ .again hlost)
  case won => exact .entered (hscene ▸ .replayWon)
  case lost stored => exact .entered (hscene ▸ .replayLost stored)
  case replay => exact .entered (hscene ▸ .answering)
  case farewell => exact .entered (hscene ▸ .closed)

theorem successor_of_listen {hear : Bytes → Game} (hcue : g.cue = .listen hear)
    (octets : Bytes) : g.Successor (hear octets) := by
  obtain ⟨r, hscene, rfl⟩ | ⟨hscene, rfl⟩ := exists_of_listen hcue
  · unfold hearLetter
    split
    · rename_i letter hletter
      exact .entered (hscene ▸ .echo r (Keys.isLetter_of_firstLetter? hletter))
    · exact .stayed (.inl ⟨r, hscene⟩)
  · unfold hearAnswer
    split
    · exact .began (.inr hscene)
    · exact .entered (hscene ▸ .farewell)
    · exact .stayed (.inr hscene)

theorem successor_of_leads (h : Dialogue.Leads g next) : g.Successor next := by
  cases h with
  | go hcue => exact successor_of_go hcue
  | hear hcue octets => exact successor_of_listen hcue octets

theorem results_enter (g : Game) (scene : Scene) :
    (g.enter scene).won = g.won + UInt32.ofNat (scene.begins?.toList.count .roundWon) ∧
      (g.enter scene).lost
        = g.lost + UInt32.ofNat (scene.begins?.toList.count .roundLost) := by
  cases scene <;> simp [enter, Scene.begins?]

@[simp] theorem stored_enter (g : Game) (scene : Scene) :
    (g.enter scene).stored = g.stored := by
  cases scene <;> rfl

theorem phase_enter (g : Game) (scene : Scene) : (g.enter scene).phase = scene.phase :=
  congrArg Scene.phase (scene_enter g scene)

variable {states : List Game}

theorem phases_snoc (states : List Game) (g : Game) :
    phases (states ++ [g]) = phases states ++ g.scene.begins?.toList := by
  cases hbegins : g.scene.begins? <;> simp [phases, hbegins]

theorem finished_snoc (states : List Game) (g : Game) :
    finished (states ++ [g]) = finished states + if g.scene.finishes then 1 else 0 := by
  simp [finished, List.countP_append, List.countP_singleton]

theorem InOrder.snoc (h : InOrder states g)
    (hphase : (next.scene.begins? = none ∧ next.phase = g.phase) ∨
      (next.scene.begins? = some next.phase ∧ next.phase ∈ g.phase.next))
    (hfits : next.phase.Fits next.stored)
    (hwon : next.won
      = g.won + UInt32.ofNat (next.scene.begins?.toList.count .roundWon))
    (hlost : next.lost
      = g.lost + UInt32.ofNat (next.scene.begins?.toList.count .roundLost))
    (hfinished : (if next.scene.finishes then 1 else 0) + g.scene.outstanding
      = next.scene.begins?.toList.count .roundWon
        + next.scene.begins?.toList.count .roundLost + next.scene.outstanding) :
    InOrder (states ++ [next]) next where
  first := by
    rw [phases_snoc, List.head?_append, h.first]
    rfl
  last := by
    rw [phases_snoc]
    rcases hphase with ⟨hnone, hsame⟩ | ⟨hsome, -⟩
    · rw [hnone, hsame, Option.toList_none, List.append_nil, h.last]
    · rw [hsome, Option.toList_some, List.getLast?_concat]
  chain := by
    rw [phases_snoc]
    rcases hphase with ⟨hnone, -⟩ | ⟨hsome, hedge⟩
    · rw [hnone, Option.toList_none, List.append_nil]
      exact h.chain
    · rw [hsome, Option.toList_some]
      refine List.isChain_append.mpr ⟨h.chain, List.isChain_singleton _, ?_⟩
      intro before hbefore after hafter
      rw [h.last, Option.mem_some_iff] at hbefore
      rw [List.head?_cons, Option.mem_some_iff] at hafter
      rwa [← hbefore, ← hafter]
  fits := hfits
  won := by rw [hwon, h.won, phases_snoc, List.count_append, UInt32.ofNat_add]
  lost := by rw [hlost, h.lost, phases_snoc, List.count_append, UInt32.ofNat_add]
  finished := by
    rw [finished_snoc, phases_snoc, List.count_append, List.count_append, h.finished]
    omega

theorem InOrder.succ (h : InOrder states g) (hnext : g.Successor next) :
    InOrder (states ++ [next]) next := by
  cases hnext with
  | @entered scene hleads =>
    obtain ⟨hwon, hlost⟩ := results_enter g scene
    apply h.snoc
    · rw [scene_enter, phase_enter]
      exact hleads.phase
    · rw [phase_enter, stored_enter]
      exact hleads.fits h.fits
    · rwa [scene_enter]
    · rwa [scene_enter]
    · rw [scene_enter]
      exact hleads.outstanding
  | @ended r scene hends =>
    obtain ⟨hwon, hlost⟩ := results_enter (g.store r) scene
    apply h.snoc
    · rw [scene_enter, phase_enter]
      exact .inr hends.phase
    · rw [phase_enter, stored_enter]
      exact hends.fits
    · rwa [scene_enter]
    · rwa [scene_enter]
    · rw [scene_enter]
      exact hends.outstanding
  | began hscene =>
    have hedge : Phase.roundActive ∈ g.phase.next := by
      rcases hscene with hwelcome | hanswering
      · simp [phase, hwelcome, Scene.phase, Phase.next]
      · simp [phase, hanswering, Scene.phase, Phase.next]
    have hsettled : g.scene.outstanding = 0 := by
      rcases hscene with hwelcome | hanswering
      · simp [hwelcome, Scene.outstanding]
      · simp [hanswering, Scene.outstanding]
    refine h.snoc (.inr ⟨rfl, hedge⟩) trivial (UInt32.add_zero _).symm
      (UInt32.add_zero _).symm ?_
    rw [hsettled]
    rfl
  | stayed hscene =>
    have hbegins : g.scene.begins? = none := by
      obtain ⟨r, hguessing⟩ | hanswering := hscene
      · rw [hguessing]
        rfl
      · rw [hanswering]
        rfl
    have hfinishes : g.scene.finishes = false := by
      obtain ⟨r, hguessing⟩ | hanswering := hscene
      · rw [hguessing]
        rfl
      · rw [hanswering]
        rfl
    apply h.snoc (.inl ⟨hbegins, rfl⟩) h.fits
    · simp [hbegins]
    · simp [hbegins]
    · simp [hbegins, hfinishes]

theorem inOrder_start (options : Options) :
    InOrder [Game.start options] (Game.start options) where
  first := rfl
  last := rfl
  chain := List.isChain_singleton _
  fits := trivial
  won := rfl
  lost := rfl
  finished := rfl

/-- A call that fails is made before the game is closed, for then it has nothing to send
and nothing to hear. -/
theorem phase_ne_closed {ℓ : Type} [Line ℓ] {r : Run Game ℓ} {loss : Loss}
    (hscreen : r.OnScreen) (hfails : r.Fails loss) : r.state.phase ≠ .closed := by
  intro hclosed
  have hscene : r.state.scene = .closed := by
    cases hscene : r.state.scene <;> simp_all [phase, Scene.phase]
  cases hfails with
  | send hagenda hsend =>
    have hsuffix := hscreen _ hagenda
    have hempty : Dialogue.screen r.state = [] := by
      show r.state.scene.screen r.state.view = []
      rw [hscene]
      rfl
    rw [hempty] at hsuffix
    simp at hsuffix
  | receive hagenda hcue hreceive =>
    have hover : r.state.cue = .over := by simp only [cue, hscene]
    cases hover.symm.trans hcue

theorem phase_of_over (h : g.cue = .over) : g.phase = .closed := by
  cases hscene : g.scene <;> simp [cue, hscene] at h
  simp [phase, hscene, Scene.phase]

end Game

/-- **A game keeps to its phases.**  Whatever the line does, and however far the session
has come: the phases follow each other along their edges, the stored round has the
standing that goes with the phase, and the results are as many as the phases that showed
them, so that only a round whose last board is on its way is over and not yet counted.
The report names the closed phase if the game has come to its end, and otherwise the phase
in which the call was made that lost the line. -/
theorem inOrder_course {ℓ : Type} [Line ℓ] (options : Options) (line : ℓ) :
    (∀ count, Game.InOrder
      ((Run.begin (Game.start options) line 0).course options.pacing count)
      ((Run.begin (Game.start options) line 0).steps options.pacing count).state) ∧
    ∀ (limit : Option Nat) (patience : Nat) (won lost : UInt32) (last : Phase)
      (loss : Option Loss),
      (Program.game.run options limit patience line).report
        = some (.game won lost last loss) →
      (last = .closed ↔ loss = none) ∧
      ∃ count, ∃ r : Run Game ℓ,
        r = (Run.begin (Game.start options) line 0).steps options.pacing count ∧
        r.state.won = won ∧ r.state.lost = lost ∧ r.state.phase = last ∧
        ∀ cause, loss = some cause → r.Fails cause := by
  constructor
  · intro count
    apply Run.course_induction options.pacing Game.InOrder
    · exact Run.led_begin (Game.start options) line 0
    · exact Game.inOrder_start options
    · intro states g next h hleads
      exact h.succ (Game.successor_of_leads hleads)
  · intro limit patience won lost last loss hreport
    obtain ⟨count, hcount⟩ := Program.exists_steps_game options limit patience line
    rw [hcount] at hreport
    obtain ⟨before, ended, hlast, -, -, hwhy⟩ := Run.exists_last_of_report? rfl hreport
    have hscreen := Run.onScreen_steps options.pacing (Game.start options) line 0 before
    generalize hr : (Run.begin (Game.start options) line 0).steps options.pacing before = r
      at hlast hwhy hscreen
    obtain ⟨hwon, hlost, hphase, rfl⟩ := Report.game.inj hlast
    refine ⟨?_, before, r, hr.symm, hwon, hlost, hphase, ?_⟩
    · rw [← hphase]
      rcases hwhy with ⟨cause, rfl, hfails⟩ | ⟨rfl, hover⟩
      · simp [Game.phase_ne_closed hscreen hfails]
      · simp [Game.phase_of_over hover]
    · rintro cause rfl
      rcases hwhy with ⟨other, hother, hfails⟩ | ⟨hnone, -⟩
      · rwa [Option.some.inj hother]
      · simp at hnone

def Options.short : Options := { Options.usual with words := ["OX"] }

/-- Keys that win a round on this word and lose the next one, on a line that fails while
the end of that round is shown. -/
def Recorded.fading : Recorded :=
  (ofBytes [0x6F, 0x58, 0x79, 0x41, 0x42, 0x43, 0x44, 0x45, 0x46]).failAfter 235

theorem inOrder_course_fading :
    (Program.game.run Options.short none 12 Recorded.fading).report
      = some (.game 1 1 .roundLost (some (.fault (Fault.ofKind .brokenPipe)))) ∧
    ∃ count, ∃ r : Run Game Recorded,
      r = (Run.begin (Game.start Options.short) Recorded.fading 0).steps
        Options.short.pacing count ∧
      r.state.won = 1 ∧ r.state.lost = 1 ∧ r.state.phase = .roundLost ∧
      r.Fails (.fault (Fault.ofKind .brokenPipe)) := by
  have hreport : (Program.game.run Options.short none 12 Recorded.fading).report
      = some (.game 1 1 .roundLost (some (.fault (Fault.ofKind .brokenPipe)))) := by
    decide +kernel
  obtain ⟨-, count, r, hr, hwon, hlost, hphase, hfails⟩ :=
    (inOrder_course Options.short Recorded.fading).2 none 12 1 1 .roundLost _ hreport
  exact ⟨hreport, count, r, hr, hwon, hlost, hphase, hfails _ rfl⟩

end TerminalHost
