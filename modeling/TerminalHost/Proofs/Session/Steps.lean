import TerminalHost.Session.Outcome

/-!
# The moves of a run

The step of a run is a function; here it is taken apart into the moves it can make,
each with the answer of the line that leads to it.  An invariant of runs is then a
fact about ten moves, and two runs are compared move by move.
-/

namespace TerminalHost

namespace Run

variable {σ ℓ : Type}

/-- Whether a run may still use its line for more than to close it. -/
def isTalking (r : Run σ ℓ) : Bool :=
  match r.agenda with
  | .play _ | .turn _ => true
  | _ => false

variable [Dialogue σ]

theorem isOver_of_report? {r : Run σ ℓ} {report : Report} (h : r.report? = some report) :
    r.isOver = true := by
  unfold report? at h
  unfold isOver
  split at h <;> simp_all

theorem report?_of_done {r : Run σ ℓ} {loss : Option Loss} (h : r.agenda = .done loss) :
    r.report? = some (Dialogue.report r.state loss) := by
  simp only [report?, h]

variable [Line ℓ]

/-- What one step can do with a run that is not over. -/
inductive Move (pacing : Pacing) (r : Run σ ℓ) : Run σ ℓ → Prop where
  /-- A chunk has been sent. -/
  | sent {parts : List Part} {rest : Script} {line : ℓ} {time : Nat}
      (hagenda : r.agenda = .play (.send parts :: rest))
      (hsend : Line.send r.line r.now (Step.chunk parts) = (line, ⟨time, .ok ()⟩)) :
      Move pacing r { r with line := line, now := time, agenda := .play rest }
  /-- The line was lost by a send. -/
  | unsent {parts : List Part} {rest : Script} {line : ℓ} {time : Nat} {loss : Loss}
      (hagenda : r.agenda = .play (.send parts :: rest))
      (hsend : Line.send r.line r.now (Step.chunk parts) = (line, ⟨time, .error loss⟩)) :
      Move pacing r { r with line := line, now := time, agenda := .leave (some loss) }
  | paused {length : Duration} {rest : Script}
      (hagenda : r.agenda = .play (.pause length :: rest)) :
      Move pacing r
        { r with now := r.now + (pacing.pause length).ticks, agenda := .play rest }
  /-- The dialogue goes on by itself. -/
  | went {next : σ} (hagenda : r.agenda = .play [])
      (hcue : Dialogue.cue r.state = .go next) :
      Move pacing r { r with agenda := .turn next }
  | heard {hear : Bytes → σ} {line : ℓ} {time : Nat} {octets : Bytes}
      (hagenda : r.agenda = .play []) (hcue : Dialogue.cue r.state = .listen hear)
      (hreceive : Line.receive r.line r.now 1 = (line, some ⟨time, .ok octets⟩)) :
      Move pacing r { r with line := line, now := time, agenda := .turn (hear octets) }
  /-- The line was lost while the dialogue listened. -/
  | unheard {hear : Bytes → σ} {line : ℓ} {time : Nat} {loss : Loss}
      (hagenda : r.agenda = .play []) (hcue : Dialogue.cue r.state = .listen hear)
      (hreceive : Line.receive r.line r.now 1 = (line, some ⟨time, .error loss⟩)) :
      Move pacing r { r with line := line, now := time, agenda := .leave (some loss) }
  /-- The line will never answer. -/
  | unanswered {hear : Bytes → σ} {line : ℓ}
      (hagenda : r.agenda = .play []) (hcue : Dialogue.cue r.state = .listen hear)
      (hreceive : Line.receive r.line r.now 1 = (line, none)) :
      Move pacing r { r with line := line, agenda := .stuck }
  | ended (hagenda : r.agenda = .play []) (hcue : Dialogue.cue r.state = .over) :
      Move pacing r { r with agenda := .leave none }
  | turned {next : σ} (hagenda : r.agenda = .turn next) :
      Move pacing r
        { r.note (Dialogue.noted r.state next) with
          state := next
          agenda := .play (Dialogue.screen next) }
  | left {loss : Option Loss} (hagenda : r.agenda = .leave loss) :
      Move pacing r
        { r.note (Dialogue.closing r.state loss :: (Line.close r.line).2) with
          line := (Line.close r.line).1
          agenda := .done loss }

theorem Move.step_eq {pacing : Pacing} {r s : Run σ ℓ} (h : Move pacing r s) :
    r.step pacing = s := by
  cases h with
  | sent hagenda hsend => simp only [step, hagenda, sendChunk, hsend]
  | unsent hagenda hsend => simp only [step, hagenda, sendChunk, hsend]
  | paused hagenda => simp only [step, hagenda]
  | went hagenda hcue => simp only [step, hagenda, hcue]
  | heard hagenda hcue hreceive => simp only [step, hagenda, hcue, listen, hreceive]
  | unheard hagenda hcue hreceive => simp only [step, hagenda, hcue, listen, hreceive]
  | unanswered hagenda hcue hreceive => simp only [step, hagenda, hcue, listen, hreceive]
  | ended hagenda hcue => simp only [step, hagenda, hcue]
  | turned hagenda => simp only [step, hagenda]
  | left hagenda => simp only [step, hagenda]

theorem move_step (pacing : Pacing) (r : Run σ ℓ) (h : r.isOver = false) :
    Move pacing r (r.step pacing) := by
  have hmove : ∃ s, Move pacing r s := by
    cases hagenda : r.agenda with
    | play rest =>
      match rest with
      | .send parts :: rest =>
        match hsend : Line.send r.line r.now (Step.chunk parts) with
        | (line, ⟨time, .ok ()⟩) => exact ⟨_, .sent hagenda hsend⟩
        | (line, ⟨time, .error loss⟩) => exact ⟨_, .unsent hagenda hsend⟩
      | .pause length :: rest => exact ⟨_, .paused hagenda⟩
      | [] =>
        match hcue : Dialogue.cue r.state with
        | .go next => exact ⟨_, .went hagenda hcue⟩
        | .over => exact ⟨_, .ended hagenda hcue⟩
        | .listen hear =>
          match hreceive : Line.receive r.line r.now 1 with
          | (line, some ⟨time, .ok octets⟩) => exact ⟨_, .heard hagenda hcue hreceive⟩
          | (line, some ⟨time, .error loss⟩) => exact ⟨_, .unheard hagenda hcue hreceive⟩
          | (line, none) => exact ⟨_, .unanswered hagenda hcue hreceive⟩
    | turn next => exact ⟨_, .turned hagenda⟩
    | leave loss => exact ⟨_, .left hagenda⟩
    | done loss => simp [isOver, hagenda] at h
    | stuck => simp [isOver, hagenda] at h
  obtain ⟨s, hs⟩ := hmove
  rw [hs.step_eq]
  exact hs

/-- What a run does with its line on the way to another one: a run that talks sends,
receives or leaves it alone, and a run that has closed its line does not talk. -/
inductive Handles (r s : Run σ ℓ) : Prop where
  | kept (htalking : r.isTalking = true) (hline : s.line = r.line)
  | sent (htalking : r.isTalking = true) (octets : Bytes)
      (hline : s.line = (Line.send r.line r.now octets).1)
  | received (htalking : r.isTalking = true)
      (hline : s.line = (Line.receive r.line r.now 1).1)
  | closed (hquiet : s.isTalking = false) (hline : s.line = (Line.close r.line).1)

theorem Move.handles {pacing : Pacing} {r s : Run σ ℓ} (h : Move pacing r s) :
    r.Handles s := by
  cases h with
  | sent hagenda hsend => exact .sent (by simp [isTalking, hagenda]) _ (by rw [hsend])
  | unsent hagenda hsend => exact .sent (by simp [isTalking, hagenda]) _ (by rw [hsend])
  | heard hagenda hcue hreceive =>
    exact .received (by simp [isTalking, hagenda]) (by rw [hreceive])
  | unheard hagenda hcue hreceive =>
    exact .received (by simp [isTalking, hagenda]) (by rw [hreceive])
  | unanswered hagenda hcue hreceive =>
    exact .received (by simp [isTalking, hagenda]) (by rw [hreceive])
  | paused hagenda => exact .kept (by simp [isTalking, hagenda]) rfl
  | went hagenda hcue => exact .kept (by simp [isTalking, hagenda]) rfl
  | ended hagenda hcue => exact .kept (by simp [isTalking, hagenda]) rfl
  | turned hagenda => exact .kept (by simp [isTalking, hagenda]) rfl
  | left hagenda => exact .closed rfl rfl

/-! ## Many steps -/

theorem steps_succ (pacing : Pacing) (count : Nat) (r : Run σ ℓ) :
    r.steps pacing (count + 1) = (r.steps pacing count).step pacing := by
  rw [steps_add]
  rfl

theorem steps_induction {pacing : Pacing} (P : Run σ ℓ → Prop)
    (hmove : ∀ {r s : Run σ ℓ}, P r → Move pacing r s → P s) {r : Run σ ℓ} (hr : P r)
    (count : Nat) : P (r.steps pacing count) := by
  induction count with
  | zero => exact hr
  | succ count ih =>
    rw [steps_succ]
    cases hover : (r.steps pacing count).isOver with
    | true => rwa [step_of_isOver pacing _ hover]
    | false => exact hmove ih (move_step pacing _ hover)

/-- A run that is cut off has taken a number of steps all the same. -/
theorem exists_steps_of_runUntil (pacing : Pacing) (limit : Option Nat) (fuel : Nat)
    (r : Run σ ℓ) : ∃ count, r.runUntil pacing limit fuel = r.steps pacing count := by
  induction fuel generalizing r with
  | zero => exact ⟨0, rfl⟩
  | succ fuel ih =>
    unfold runUntil
    split
    · exact ⟨0, rfl⟩
    · obtain ⟨count, hcount⟩ := ih (r.step pacing)
      exact ⟨count + 1, hcount⟩

theorem steps_eq_of_isOver {pacing : Pacing} {r : Run σ ℓ} {few many : Nat}
    (hle : few ≤ many) (hover : (r.steps pacing few).isOver = true) :
    r.steps pacing many = r.steps pacing few := by
  obtain ⟨more, rfl⟩ := Nat.exists_eq_add_of_le hle
  rw [steps_add, steps_of_isOver pacing more _ hover]

theorem steps_eq_steps_of_isOver {pacing : Pacing} {r : Run σ ℓ} {count enough : Nat}
    (hcount : (r.steps pacing count).isOver = true)
    (henough : (r.steps pacing enough).isOver = true) :
    r.steps pacing count = r.steps pacing enough := by
  rcases Nat.le_total count enough with hle | hle
  · exact (steps_eq_of_isOver hle hcount).symm
  · exact steps_eq_of_isOver hle henough

end Run

end TerminalHost
