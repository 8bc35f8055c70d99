import TerminalHost.Proofs.Demo.Given
import TerminalHost.Proofs.Game.Drawing
import TerminalHost.Proofs.Game.Phases
import TerminalHost.Proofs.Game.Telling
import TerminalHost.Proofs.Wire.Commands

/-!
# Nothing is out of range

A session never comes to a case that is only there to be safe.  There is always a word to
pick, so the word that stands in for one is not used; a lost round is stored when it is
shown; attempts are only taken while there are some, so that the gallows are never asked for a
stage they do not have; and the acts that have been given are the front of the programme.
-/

namespace TerminalHost

/-! ## Rounds -/

namespace Round

variable {r : Round}

theorem Fair.stage_add (h : r.Fair) : r.stage + r.attempts = 6 :=
  Nat.sub_add_cancel h.attempts_le

theorem Fair.attempts_of_miss (h : r.Fair) {c : Char} (hmiss : (r.guess c).1 = .miss) :
    (r.guess c).2.attempts + 1 = r.attempts := by
  by_cases hopen : Text.isLetter c = true ∧ r.standing = .inProgress
  · obtain ⟨hletter, hstanding⟩ := hopen
    have hpos : 0 < r.attempts := h.attempts_pos (by simp [hstanding])
    rw [guess_of_open hletter hstanding] at hmiss ⊢
    by_cases hknown : r.knows c.toUpper = true
    · rw [if_pos hknown] at hmiss
      cases hmiss
    · rw [if_neg hknown] at hmiss ⊢
      by_cases hholds : r.holds c.toUpper = true
      · rw [if_pos hholds] at hmiss
        cases hmiss
      · rw [if_neg hholds]
        exact Nat.sub_add_cancel hpos
  · rw [guess_of_closed hopen] at hmiss
    cases hmiss

end Round

/-! ## Games -/

theorem Scene.Leads.fair {s t : Scene} (h : Leads s t)
    (hfair : ∀ r, s.round? = some r → r.Fair) : ∀ r, t.round? = some r → r.Fair := by
  intro round hround
  cases h with
  | again =>
    obtain rfl := Option.some.inj hround
    exact (hfair _ rfl).guess _
  | replayWon | replayLost | answering | farewell | closed => cases hround
  | _ =>
    obtain rfl := Option.some.inj hround
    exact hfair _ rfl

theorem Scene.Leads.ne_lost {s t : Scene} (h : Leads s t) (round : Option Round) :
    t ≠ .lost round := by
  cases h <;> simp

/-- The loss that is shown is the one of the round that has ended. -/
theorem Scene.Ends.eq_some {s t : Scene} {r : Round} (h : Ends s r t) {round : Option Round}
    (hlost : t = .lost round) : round = some r := by
  cases h with
  | won => cases hlost
  | lost => exact (Scene.lost.inj hlost).symm

theorem Scene.Ends.fair {s t : Scene} {r : Round} (h : Ends s r t)
    (hfair : ∀ r, s.round? = some r → r.Fair) :
    r.Fair ∧ ∀ shown, t.round? = some shown → shown = r := by
  cases h with
  | won =>
    refine ⟨hfair _ rfl, ?_⟩
    intro shown hshown
    cases hshown
  | lost =>
    refine ⟨(hfair _ rfl).guess _, ?_⟩
    intro shown hshown
    exact (Option.some.inj hshown).symm

namespace Game

def Holds (g : Game) (r : Round) : Prop := g.scene.round? = some r ∨ g.stored = some r

structure Kept (options : Options) (g : Game) : Prop where
  words : g.words = options.secrets
  fits : g.phase.Fits g.stored
  shown : ∀ round, g.scene = .lost round → round = g.stored
  fair : ∀ r, g.Holds r → r.Fair

variable {options : Options} {g next : Game}

theorem kept_start (options : Options) : Kept options (Game.start options) where
  words := rfl
  fits := trivial
  shown := by
    intro round hscene
    cases hscene
  fair := by
    rintro r (hplayed | hstored)
    · cases hplayed
    · cases hstored

theorem Kept.succ (h : Kept options g) (hnext : g.Successor next) : Kept options next := by
  have hplayed (r : Round) (hround : g.scene.round? = some r) : r.Fair := h.fair r (.inl hround)
  cases hnext with
  | @entered scene hleads =>
    constructor
    · rw [words_enter, h.words]
    · rw [phase_enter, stored_enter]
      exact hleads.fits h.fits
    · rw [scene_enter]
      intro round hlost
      exact absurd hlost (hleads.ne_lost round)
    · unfold Holds
      rw [scene_enter, stored_enter]
      rintro r (hround | hstored)
      · exact hleads.fair hplayed r hround
      · exact h.fair r (.inr hstored)
  | @ended ended scene hends =>
    obtain ⟨hfair, hsame⟩ := hends.fair hplayed
    constructor
    · rw [words_enter]
      exact h.words
    · rw [phase_enter, stored_enter]
      exact hends.fits
    · rw [scene_enter, stored_enter]
      intro round hlost
      exact hends.eq_some hlost
    · unfold Holds
      rw [scene_enter, stored_enter]
      rintro r (hround | hstored)
      · exact hsame r hround ▸ hfair
      · exact Option.some.inj hstored ▸ hfair
  | began =>
    refine ⟨h.words, trivial, ?_, ?_⟩
    · rintro round hscene
      cases hscene
    · rintro r (hround | hstored)
      · rw [scene_newRound] at hround
        obtain rfl := Option.some.inj hround
        exact Round.fair_start _
      · exact h.fair r (.inr hstored)
  | stayed => exact h

theorem kept_steps {ℓ : Type} [Line ℓ] (options : Options) (pacing : Pacing) (line : ℓ)
    (count : Nat) :
    Kept options ((Run.begin (Game.start options) line 0).steps pacing count).state := by
  apply Run.course_induction pacing fun _ => Kept options
  · exact Run.led_begin (Game.start options) line 0
  · exact kept_start options
  · intro states g next h hleads
    exact h.succ (successor_of_leads hleads)

/-- What a game may be asked for in this state is there. -/
structure Sound (options : Options) (g : Game) : Prop where
  /-- A round always begins with a word of the list. -/
  pick : ∃ word ∈ options.secrets, (g.generator.pick g.words).1 = some word ∧
    g.newRound.scene = .opening (Round.start word)
  /-- Where a loss is shown a round is stored, and that is the round whose loss it is. -/
  lost : g.phase = .roundLost → ∃ r, g.stored = some r ∧ r.standing = .lost ∧
    g.scene = .lost g.stored ∧ g.scene.screen g.view = g.view.lost r
  attempts : ∀ r, g.Holds r → r.attempts ≤ 6 ∧ r.stage + r.attempts = 6
  miss : ∀ r, g.Holds r → ∀ c, (r.guess c).1 = .miss → (r.guess c).2.attempts + 1 = r.attempts
  /-- Gallows are drawn at a stage they have, and on their own rows. -/
  gallows : ∀ stage, g.scene.stage? = some stage → stage ≤ 6 ∧
    ∃ rest, g.scene.screen g.view
      = View.clear ++ g.view.textsFrom View.gallowsRow (View.gallows stage) ++ rest ∧
    (g.view.textsFrom View.gallowsRow (View.gallows stage)).rows.map UInt8.toNat
      = [3, 4, 5, 6, 7, 8, 9] ∧
    ∀ row ∈ rest.rows, 9 < row.toNat
  elsewhere : g.scene.stage? = none →
    ∀ row ∈ (g.scene.screen g.view).rows, row.toNat < 3 ∨ 9 < row.toNat

/-- Only a round of the game or the whole figure is drawn. -/
theorem Kept.stage_le (h : Kept options g) {stage : Nat} (hstage : g.scene.stage? = some stage) :
    stage ≤ 6 := by
  match hscene : g.scene, hstage with
  | .board r, hstage =>
    have hadd := (h.fair r (.inl (by rw [hscene]; rfl))).stage_add
    obtain rfl := Option.some.inj hstage
    omega
  | .lost (some r), hstage =>
    obtain rfl := Option.some.inj hstage
    exact Nat.le_refl _

theorem Kept.exists_lost (h : Kept options g) (hphase : g.phase = .roundLost) :
    ∃ r, g.stored = some r ∧ r.standing = .lost ∧ g.scene = .lost g.stored ∧
      g.scene.screen g.view = g.view.lost r := by
  obtain ⟨r, hstored, hlost⟩ : Phase.roundLost.Fits g.stored := hphase ▸ h.fits
  cases hscene : g.scene with
  | lost round =>
    obtain rfl := h.shown round hscene
    refine ⟨r, hstored, hlost, rfl, ?_⟩
    rw [hstored]
    rfl
  | _ => simp [phase, hscene, Scene.phase] at hphase

theorem Kept.exists_pick (h : Kept options g) :
    ∃ word ∈ options.secrets, (g.generator.pick g.words).1 = some word ∧
      g.newRound.scene = .opening (Round.start word) := by
  -- Only an empty list has nothing to pick, however many words a longer one has.
  have hne : g.words ≠ [] := by
    obtain ⟨word, hword, -⟩ := options.exists_pick? 0
    rw [h.words]
    exact List.ne_nil_of_mem hword
  obtain ⟨word, hword, hpick⟩ := g.generator.exists_pick hne
  refine ⟨word, h.words ▸ hword, hpick, ?_⟩
  rw [scene_newRound, hpick]
  rfl

theorem Kept.sound (h : Kept options g) : Sound options g where
  pick := h.exists_pick
  lost := h.exists_lost
  attempts := by
    intro r hround
    exact ⟨(h.fair r hround).attempts_le, (h.fair r hround).stage_add⟩
  miss := by
    intro r hround c hmiss
    exact (h.fair r hround).attempts_of_miss hmiss
  gallows := by
    intro stage hstage
    obtain ⟨rest, hscreen, hrest⟩ := Scene.exists_screen_of_stage? hstage g.view
    exact ⟨h.stage_le hstage, rest, hscreen, g.view.rows_gallows stage, hrest⟩
  elsewhere := by
    intro hstage
    exact Scene.rows_of_stage?_eq_none hstage g.view

end Game

/-! ## Demonstrations -/

namespace Demo

structure Kept (d : Demo) : Prop where
  onBill : d.OnBill
  all : d.bill.given ++ d.bill.ahead = Act.all

variable {d next : Demo}

theorem kept_start : Demo.start.Kept := ⟨.welcome rfl rfl rfl, rfl⟩

theorem bill_of_cue (h : d.cue = .go next) :
    next.bill.given ++ next.bill.ahead = d.bill.given ++ d.bill.ahead := by
  unfold cue at h
  cases hscene : d.scene with
  | act act =>
    rw [hscene] at h
    obtain rfl := Cue.go.inj h
    exact Playbill.advance_acts d.bill
  | closed =>
    rw [hscene] at h
    cases h
  | welcome | intermission | summary =>
    rw [hscene] at h
    obtain rfl := Cue.go.inj h
    rfl

theorem kept_steps {ℓ : Type} [Line ℓ] (pacing : Pacing) (line : ℓ) (count : Nat) :
    ((Run.begin Demo.start line 0).steps pacing count).state.Kept := by
  apply Run.course_induction pacing fun _ => Kept
  · exact Run.led_begin Demo.start line 0
  · exact kept_start
  · intro states d next h hleads
    cases hleads with
    | go hcue => exact ⟨(h.onBill.cue hcue).1, (bill_of_cue hcue).trans h.all⟩
    | hear hcue => exact absurd hcue (d.cue_ne_listen _)

/-- The acts of a demonstration in this state are the programme, up to where it has come. -/
structure Sound (d : Demo) : Prop where
  length_le : d.bill.given.length ≤ Act.all.length
  given : d.bill.given = Act.all.take d.bill.given.length
  next : d.bill.next? = Act.all[d.bill.given.length]?
  /-- An act that is played is the one to come, so there is one to count when it is over. -/
  act : ∀ act, d.scene = .act act → d.bill.next? = some act

theorem Kept.next?_eq (h : d.Kept) : d.bill.next? = Act.all[d.bill.given.length]? := by
  rw [Playbill.next?, ← h.all, List.getElem?_append_right (Nat.le_refl _), Nat.sub_self,
    List.head?_eq_getElem?]

theorem Kept.next?_of_act (h : d.Kept) {act : Act} (hact : d.scene = .act act) :
    d.bill.next? = some act := by
  cases h.onBill with
  | act hscene hahead _ =>
    obtain rfl := Demo.Scene.act.inj (hscene.symm.trans hact)
    rw [Playbill.next?, hahead]
    rfl
  | welcome hscene | intermission hscene | summary hscene | closed hscene =>
    cases hscene.symm.trans hact

theorem Kept.sound (h : d.Kept) : d.Sound where
  length_le := by
    rw [← h.all, List.length_append]
    exact Nat.le_add_right _ _
  given := by rw [← h.all, List.take_left]
  next := h.next?_eq
  act := by
    intro act hact
    exact h.next?_of_act hact

end Demo

/-- **Nothing is out of range.**  Whatever the options and the line: in every state that a
session reaches, the generator picks a word of the list, a lost round is stored when its loss
is shown, a wrong letter takes an attempt that is there, and the gallows are drawn at one of
their stages and on the rows from 3 to 9.  The acts given by a demonstration are the front of
the programme up to a place in it, and no command is longer than four octets. -/
theorem sound_steps {ℓ : Type} [Line ℓ] (options : Options) (pacing : Pacing) (line : ℓ)
    (count : Nat) :
    Game.Sound options ((Run.begin (Game.start options) line 0).steps pacing count).state ∧
      ((Run.begin Demo.start line 0).steps pacing count).state.Sound ∧
      ∀ command : Command, command.encode.length ≤ 4 := by
  exact ⟨(Game.kept_steps options pacing line count).sound,
    (Demo.kept_steps pacing line count).sound, Command.length_encode_le⟩

end TerminalHost
