import TerminalHost.Proofs.Session.Steps

/-!
# How a session ends

A session talks on its line until a call fails or its program is over.  Then it leaves:
the next step closes the line, and no step after that does anything.  So a session that
has ended stands where it stood when it made its last call.
-/

namespace TerminalHost

namespace Run

variable {σ ℓ : Type} [Dialogue σ] [Line ℓ]

inductive Fails (r : Run σ ℓ) (loss : Loss) : Prop where
  | send {parts : List Part} {rest : Script} (hagenda : r.agenda = .play (.send parts :: rest))
      (hsend : (Line.send r.line r.now (Step.chunk parts)).2.result = .error loss)
  | receive {hear : Bytes → σ} {time : Nat} (hagenda : r.agenda = .play [])
      (hcue : Dialogue.cue r.state = .listen hear)
      (hreceive : (Line.receive r.line r.now 1).2 = some ⟨time, .error loss⟩)

variable {pacing : Pacing} {r : Run σ ℓ} {loss : Option Loss}

omit [Dialogue σ] [Line ℓ] in
theorem isOver_of_isTalking (h : r.isTalking = true) : r.isOver = false := by
  unfold isTalking at h
  unfold isOver
  split at h <;> simp_all

theorem agenda_step_ne_done (h : r.isTalking = true) :
    (r.step pacing).agenda ≠ .done loss := by
  have hmove := move_step pacing r (isOver_of_isTalking h)
  generalize r.step pacing = s at hmove
  cases hmove with
  | left hagenda => simp [isTalking, hagenda] at h
  | _ => simp

theorem isTalking_of_step (h : (r.step pacing).isOver = false) : r.isTalking = true := by
  cases hagenda : r.agenda with
  | play rest => simp [isTalking, hagenda]
  | turn next => simp [isTalking, hagenda]
  | leave other => simp [isOver, step, hagenda] at h
  | done other => simp [isOver, step, hagenda] at h
  | stuck => simp [isOver, step, hagenda] at h

theorem isTalking_of_steps {few many : Nat} (hle : few ≤ many)
    (h : (r.steps pacing many).isTalking = true) :
    (r.steps pacing few).isTalking = true := by
  obtain ⟨more, rfl⟩ := Nat.exists_eq_add_of_le hle
  induction more with
  | zero => exact h
  | succ more ih =>
    rw [← Nat.add_assoc, steps_succ] at h
    exact ih (Nat.le_add_right few more) (isTalking_of_step (isOver_of_isTalking h))

theorem exists_of_leave (htalking : r.isTalking = true) {count : Nat}
    (h : (r.steps pacing count).agenda = .leave loss) :
    ∃ before, count = before + 1 ∧ (r.steps pacing before).isTalking = true := by
  cases count with
  | zero =>
    have hagenda : r.agenda = .leave loss := h
    simp [isTalking, hagenda] at htalking
  | succ before =>
    rw [steps_succ] at h
    have hover : ((r.steps pacing before).step pacing).isOver = false := by
      simp only [isOver, h]
    exact ⟨before, rfl, isTalking_of_step hover⟩

theorem exists_last (htalking : r.isTalking = true) {count : Nat}
    (h : (r.steps pacing count).agenda = .done loss) :
    ∃ before, (r.steps pacing before).isTalking = true ∧
      (r.steps pacing (before + 1)).agenda = .leave loss ∧
      r.steps pacing count = r.steps pacing (before + 2) := by
  -- Only the step after the one that leaves makes a run that is done.
  induction count with
  | zero =>
    have hagenda : r.agenda = .done loss := h
    simp [isTalking, hagenda] at htalking
  | succ count ih =>
    rw [steps_succ] at h
    cases hagenda : (r.steps pacing count).agenda with
    | play rest =>
      exact absurd h (agenda_step_ne_done (by simp [isTalking, hagenda]))
    | turn next =>
      exact absurd h (agenda_step_ne_done (by simp [isTalking, hagenda]))
    | leave other =>
      have hsame : other = loss := by
        rw [(Move.left hagenda).step_eq] at h
        exact Agenda.done.inj h
      subst hsame
      obtain ⟨before, rfl, hbefore⟩ := exists_of_leave htalking hagenda
      exact ⟨before, hbefore, hagenda, rfl⟩
    | done other =>
      have hover : (r.steps pacing count).isOver = true := by simp [isOver, hagenda]
      rw [step_of_isOver pacing _ hover] at h
      obtain ⟨before, hbefore, hleave, hsteps⟩ := ih h
      refine ⟨before, hbefore, hleave, ?_⟩
      rw [steps_succ, step_of_isOver pacing _ hover, hsteps]
    | stuck => simp [step, hagenda] at h

/-- A run leaves because a call has failed, or because its program is over. -/
theorem fails_or_over (htalking : r.isTalking = true)
    (h : (r.step pacing).agenda = .leave loss) :
    (r.step pacing).state = r.state ∧
      ((∃ cause, loss = some cause ∧ r.Fails cause) ∨
        (loss = none ∧ r.agenda = .play [] ∧ Dialogue.cue r.state = .over)) := by
  have hmove := move_step pacing r (isOver_of_isTalking htalking)
  generalize r.step pacing = s at hmove h
  cases hmove with
  | @unsent parts rest line time cause hagenda hsend =>
    refine ⟨rfl, .inl ⟨cause, (Agenda.leave.inj h).symm, .send hagenda ?_⟩⟩
    rw [hsend]
  | @unheard hear line time cause hagenda hcue hreceive =>
    have hanswer : (Line.receive r.line r.now 1).2 = some ⟨time, .error cause⟩ := by
      rw [hreceive]
    exact ⟨rfl, .inl ⟨cause, (Agenda.leave.inj h).symm, .receive hagenda hcue hanswer⟩⟩
  | ended hagenda hcue => exact ⟨rfl, .inr ⟨(Agenda.leave.inj h).symm, hagenda, hcue⟩⟩
  | _ => simp at h

omit [Line ℓ] in
theorem exists_done_of_report? {report : Report} (h : r.report? = some report) :
    ∃ loss, r.agenda = .done loss ∧ Dialogue.report r.state loss = report := by
  unfold report? at h
  split at h
  · exact ⟨_, ‹_›, Option.some.inj h⟩
  · simp at h

/-- A report tells where the run stood when its last call failed or its program was over. -/
theorem exists_last_of_report? (htalking : r.isTalking = true) {count : Nat}
    {report : Report} (h : (r.steps pacing count).report? = some report) :
    ∃ before loss, Dialogue.report (r.steps pacing before).state loss = report ∧
      (r.steps pacing before).isTalking = true ∧
      (r.steps pacing count).line
        = (Line.close (r.steps pacing (before + 1)).line).1 ∧
      ((∃ cause, loss = some cause ∧ (r.steps pacing before).Fails cause) ∨
        (loss = none ∧ Dialogue.cue (r.steps pacing before).state = .over)) := by
  obtain ⟨loss, hdone, hreport⟩ := exists_done_of_report? h
  obtain ⟨before, hbefore, hleave, hcount⟩ := exists_last htalking hdone
  have hlast : r.steps pacing (before + 2) = (r.steps pacing (before + 1)).step pacing :=
    steps_succ pacing (before + 1) r
  have hclosed : (r.steps pacing (before + 1)).step pacing = _ := (Move.left hleave).step_eq
  rw [hcount, hlast, hclosed] at hreport ⊢
  rw [steps_succ] at hleave
  obtain ⟨hstate, hwhy⟩ := fails_or_over hbefore hleave
  refine ⟨before, loss, ?_, hbefore, rfl, ?_⟩
  · rw [← hreport, steps_succ, ← hstate]
    rfl
  · rcases hwhy with hfails | ⟨hnone, -, hcue⟩
    · exact .inl hfails
    · exact .inr ⟨hnone, hcue⟩

def OnScreen {σ ℓ : Type} [Dialogue σ] (r : Run σ ℓ) : Prop :=
  ∀ rest, r.agenda = .play rest → rest <:+ Dialogue.screen r.state

theorem OnScreen.move {s : Run σ ℓ} (h : r.OnScreen) (hmove : Move pacing r s) :
    s.OnScreen := by
  intro rest hrest
  cases hmove with
  | @sent parts later line time hagenda hsend =>
    obtain rfl := Agenda.play.inj hrest
    exact (List.suffix_cons _ _).trans (h _ hagenda)
  | @paused length later hagenda =>
    obtain rfl := Agenda.play.inj hrest
    exact (List.suffix_cons _ _).trans (h _ hagenda)
  | turned hagenda =>
    obtain rfl := Agenda.play.inj hrest
    exact List.suffix_refl _
  | _ => simp at hrest

theorem onScreen_steps (pacing : Pacing) (state : σ) (line : ℓ) (now count : Nat) :
    ((begin state line now).steps pacing count).OnScreen := by
  apply steps_induction OnScreen
  · intro r s h hmove
    exact h.move hmove
  · intro rest hrest
    obtain rfl := Agenda.play.inj hrest
    exact List.suffix_refl _

end Run

theorem Program.exists_steps_game {ℓ : Type} [Line ℓ] (options : Options)
    (limit : Option Nat) (patience : Nat) (line : ℓ) :
    ∃ count, Program.game.run options limit patience line
      = ((Run.begin (Game.start options) line 0).steps options.pacing count).outcome := by
  obtain ⟨count, hcount⟩ := Run.exists_steps_of_runUntil options.pacing limit
    ((patience + 1) * Dialogue.stride Game) (Run.begin (Game.start options) line 0)
  exact ⟨count, congrArg Run.outcome hcount⟩

end TerminalHost
