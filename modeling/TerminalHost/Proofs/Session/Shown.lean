import TerminalHost.Proofs.Line.Tapped
import TerminalHost.Proofs.Session.Course

/-!
# What a session has played

A session plays the screens of the states of its course, one after the other and each to
its end before it goes on.  So what it has sent at any time is the beginning of these
screens, step by step: a step is sent as a whole, or it is refused and is the last one.
-/

namespace TerminalHost

namespace Run

variable {σ ℓ : Type}

/-- A run has played so much of some screens, and the rest is still to be played. -/
structure Plays (screens played left : Script) (r : Run σ (Tapped ℓ)) : Prop where
  screens : screens = played ++ left
  sent : Exchange.chunks r.line.log = played.chunks
  playing {rest : Script} (hagenda : r.agenda = .play rest) : left = rest
  turning {next : σ} (hagenda : r.agenda = .turn next) : left = []

variable {screens played left : Script} {r s : Run σ (Tapped ℓ)}

theorem Plays.next {step : Step} {rest : Script} (h : Plays screens played left r)
    (hagenda : r.agenda = .play (step :: rest))
    (hsent : Exchange.chunks s.line.log = Exchange.chunks r.line.log ++ step.chunk?.toList)
    (hagenda' : s.agenda = .play rest ∨ s.isTalking = false) :
    Plays screens (played ++ [step]) rest s where
  screens := by
    rw [h.screens, h.playing hagenda, List.append_assoc]
    rfl
  sent := by
    rw [hsent, h.sent, Script.chunks_append]
    cases step <;> rfl
  playing hplay := by
    rcases hagenda' with hrest | hquiet
    · exact Agenda.play.inj (hrest.symm.trans hplay)
    · simp [isTalking, hplay] at hquiet
  turning hturn := by
    rcases hagenda' with hrest | hquiet
    · simp [hrest] at hturn
    · simp [isTalking, hturn] at hquiet

theorem Plays.silent (h : Plays screens played left r)
    (hsent : Exchange.chunks s.line.log = Exchange.chunks r.line.log)
    (hagenda : s.isTalking = false ∨ (r.agenda = .play [] ∧ ∃ next, s.agenda = .turn next)) :
    Plays screens played left s where
  screens := h.screens
  sent := hsent.trans h.sent
  playing hplay := by
    rcases hagenda with hquiet | ⟨-, next, hnext⟩
    · simp [isTalking, hplay] at hquiet
    · simp [hnext] at hplay
  turning hturn := by
    rcases hagenda with hquiet | ⟨hplay, -⟩
    · simp [isTalking, hturn] at hquiet
    · exact h.playing hplay

variable [Dialogue σ] [Line ℓ]

theorem Plays.move {pacing : Pacing} (h : Plays screens played left r)
    (hmove : Move pacing r s) :
    ∃ played left, Plays (screens ++ r.entered?.toList.flatMap Dialogue.screen) played left s := by
  have hstay (hentered : r.entered? = none) :
      screens ++ r.entered?.toList.flatMap Dialogue.screen = screens := by
    rw [hentered]
    exact List.append_nil _
  cases hmove with
  | sent hagenda hsend =>
    rw [hstay (by simp [entered?, hagenda])]
    refine ⟨_, _, h.next hagenda ?_ (.inl rfl)⟩
    rw [Tapped.log_send hsend, Exchange.chunks_append]
    rfl
  | unsent hagenda hsend =>
    rw [hstay (by simp [entered?, hagenda])]
    refine ⟨_, _, h.next hagenda ?_ (.inr rfl)⟩
    rw [Tapped.log_send hsend, Exchange.chunks_append]
    rfl
  | paused hagenda =>
    rw [hstay (by simp [entered?, hagenda])]
    exact ⟨_, _, h.next hagenda (List.append_nil _).symm (.inl rfl)⟩
  | went hagenda hcue =>
    rw [hstay (by simp [entered?, hagenda])]
    exact ⟨_, _, h.silent rfl (.inr ⟨hagenda, _, rfl⟩)⟩
  | heard hagenda hcue hreceive =>
    rw [hstay (by simp [entered?, hagenda])]
    refine ⟨_, _, h.silent ?_ (.inr ⟨hagenda, _, rfl⟩)⟩
    rw [Tapped.log_receive hreceive, Exchange.chunks_append]
    exact List.append_nil _
  | unheard hagenda hcue hreceive =>
    rw [hstay (by simp [entered?, hagenda])]
    refine ⟨_, _, h.silent ?_ (.inl rfl)⟩
    rw [Tapped.log_receive hreceive, Exchange.chunks_append]
    exact List.append_nil _
  | unanswered hagenda hcue hreceive =>
    rw [hstay (by simp [entered?, hagenda])]
    refine ⟨_, _, h.silent ?_ (.inl rfl)⟩
    rw [Tapped.log_receive hreceive, Exchange.chunks_append]
    exact List.append_nil _
  | ended hagenda hcue =>
    rw [hstay (by simp [entered?, hagenda])]
    exact ⟨_, _, h.silent rfl (.inl rfl)⟩
  | left hagenda =>
    rw [hstay (by simp [entered?, hagenda])]
    exact ⟨_, _, h.silent rfl (.inl rfl)⟩
  | @turned next hagenda =>
    have hleft := h.turning hagenda
    refine ⟨played, Dialogue.screen next, ?_, h.sent, fun hplay => ?_, fun hturn => ?_⟩
    · rw [h.screens, hleft]
      simp [entered?, hagenda]
    · exact Agenda.play.inj hplay
    · cases hturn

/-- At any time, a session has played the beginning of the screens of its course. -/
theorem exists_plays_steps (pacing : Pacing) (start : σ) (line : ℓ) (count : Nat) :
    ∃ played left,
      Plays (((begin start (Tapped.tap line) 0).course pacing count).flatMap Dialogue.screen)
        played left ((begin start (Tapped.tap line) 0).steps pacing count) := by
  induction count with
  | zero =>
    refine ⟨[], Dialogue.screen start, ?_, rfl, fun hplay => ?_, fun hturn => ?_⟩
    · exact List.flatMap_singleton _ _
    · exact Agenda.play.inj hplay
    · cases hturn
  | succ count ih =>
    obtain ⟨played, left, h⟩ := ih
    rw [course, List.flatMap_append, steps_succ]
    generalize hr : (begin start (Tapped.tap line) 0).steps pacing count = r at h
    cases hover : r.isOver with
    | true =>
      rw [entered?_of_isOver hover, step_of_isOver pacing r hover]
      exact ⟨played, left, by simpa using h⟩
    | false => exact h.move (move_step pacing r hover)

end Run

end TerminalHost
