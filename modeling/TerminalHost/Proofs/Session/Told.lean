import TerminalHost.Proofs.Line.Tapped

/-!
# What a dialogue tells

A dialogue shows the screen of a scene, goes on or hears something, and shows the next
screen.  What passes over the line of a session is such a tale, told up to some point:
the line decides what is heard and when the tale breaks off, and nothing else.
-/

namespace TerminalHost

/-- A dialogue that began in `start` stands in a state after all of `log` has passed, the
screen of that state included. -/
inductive Told {σ : Type} [Dialogue σ] (start : σ) : σ → List Exchange → Prop where
  | begun : Told start start ((Dialogue.screen start).exchanges)
  | went {s next : σ} {log : List Exchange} (h : Told start s log)
      (hcue : Dialogue.cue s = .go next) :
      Told start next (log ++ (Dialogue.screen next).exchanges)
  | heard {s : σ} {log : List Exchange} (h : Told start s log) {hear : Bytes → σ}
      (hcue : Dialogue.cue s = .listen hear) (octets : Bytes) :
      Told start (hear octets)
        (log ++ .heard octets :: (Dialogue.screen (hear octets)).exchanges)

namespace Run

variable {σ ℓ : Type} [Dialogue σ]

/-- What has passed over the line of a run, and what the run is about to send, is what its
dialogue tells. -/
inductive Tells (start : σ) (r : Run σ (Tapped ℓ)) : Prop where
  | playing {rest : Script} {log : List Exchange} (hagenda : r.agenda = .play rest)
      (htold : Told start r.state log) (hlog : r.line.log ++ rest.exchanges = log)
  | turning {next : σ} {earlier log : List Exchange} (hagenda : r.agenda = .turn next)
      (hstate : Told start r.state earlier) (htold : Told start next log)
      (hlog : r.line.log ++ (Dialogue.screen next).exchanges = log)
  | leaving {left : Script} {log : List Exchange} (hagenda : r.isTalking = false)
      (htold : Told start r.state log) (hlog : r.line.log ++ left.exchanges = log)

variable {start : σ} {r : Run σ (Tapped ℓ)}

theorem Tells.of_play (h : Tells start r) {rest : Script} (hagenda : r.agenda = .play rest) :
    Told start r.state (r.line.log ++ rest.exchanges) := by
  cases h with
  | playing hplay htold hlog =>
    rw [hagenda, Agenda.play.injEq] at hplay
    rwa [hplay, hlog]
  | turning hturn => simp [hagenda] at hturn
  | leaving hleave => simp [isTalking, hagenda] at hleave

theorem Tells.of_turn (h : Tells start r) {next : σ} (hagenda : r.agenda = .turn next) :
    Told start next (r.line.log ++ (Dialogue.screen next).exchanges) := by
  cases h with
  | playing hplay => simp [hagenda] at hplay
  | turning hturn hstate htold hlog =>
    rw [hagenda, Agenda.turn.injEq] at hturn
    rwa [hturn, hlog]
  | leaving hleave => simp [isTalking, hagenda] at hleave

theorem Tells.exists_state (h : Tells start r) : ∃ log, Told start r.state log := by
  cases h with
  | playing hagenda htold hlog => exact ⟨_, htold⟩
  | turning hagenda hstate htold hlog => exact ⟨_, hstate⟩
  | leaving hagenda htold hlog => exact ⟨_, htold⟩

theorem Tells.exists_told (h : Tells start r) :
    ∃ (s : σ) (left : Script), Told start s (r.line.log ++ left.exchanges) := by
  cases h with
  | playing hagenda htold hlog => exact ⟨_, _, hlog ▸ htold⟩
  | turning hagenda hstate htold hlog => exact ⟨_, _, hlog ▸ htold⟩
  | leaving hagenda htold hlog => exact ⟨_, _, hlog ▸ htold⟩

theorem Tells.of_leave (h : Tells start r) (htalking : r.isTalking = false) :
    ∃ left : Script, Told start r.state (r.line.log ++ left.exchanges) := by
  cases h with
  | playing hplay => simp [isTalking, hplay] at htalking
  | turning hturn => simp [isTalking, hturn] at htalking
  | leaving hagenda htold hlog => exact ⟨_, hlog ▸ htold⟩

variable [Line ℓ]

theorem Tells.move {pacing : Pacing} {s : Run σ (Tapped ℓ)} (h : Tells start r)
    (hmove : Move pacing r s) : Tells start s := by
  cases hmove with
  | @sent parts rest line time hagenda hsend =>
    have htold := h.of_play hagenda
    have hlog := Tapped.log_send hsend
    refine .playing rfl htold ?_
    rw [hlog, List.append_assoc]
    rfl
  | @unsent parts rest line time loss hagenda hsend =>
    have htold := h.of_play hagenda
    have hlog := Tapped.log_send hsend
    have hleft : line.log ++ Script.exchanges rest
        = r.line.log ++ Script.exchanges (.send parts :: rest) := by
      rw [hlog, List.append_assoc]
      rfl
    exact .leaving rfl htold hleft
  | paused hagenda => exact .playing rfl (h.of_play hagenda) rfl
  | @went next hagenda hcue =>
    have htold := h.of_play hagenda
    rw [Script.exchanges_nil, List.append_nil] at htold
    exact .turning rfl htold (htold.went hcue) rfl
  | @heard hear line time octets hagenda hcue hreceive =>
    have htold := h.of_play hagenda
    have hlog := Tapped.log_receive hreceive
    rw [Script.exchanges_nil, List.append_nil] at htold
    refine .turning rfl htold (htold.heard hcue octets) ?_
    rw [hlog, List.append_assoc]
    rfl
  | @unheard hear line time loss hagenda hcue hreceive =>
    have hlog := Tapped.log_receive hreceive
    have hleft : line.log ++ Script.exchanges [] = r.line.log ++ Script.exchanges [] := by
      rw [hlog]
      simp [Tapped.hearing]
    exact .leaving rfl (h.of_play hagenda) hleft
  | @unanswered hear line hagenda hcue hreceive =>
    have hlog := Tapped.log_receive hreceive
    have hleft : line.log ++ Script.exchanges [] = r.line.log ++ Script.exchanges [] := by
      rw [hlog]
      simp [Tapped.hearing]
    exact .leaving rfl (h.of_play hagenda) hleft
  | ended hagenda hcue => exact .leaving rfl (h.of_play hagenda) rfl
  | @turned next hagenda => exact .playing rfl (h.of_turn hagenda) rfl
  | @left loss hagenda =>
    obtain ⟨left, htold⟩ := h.of_leave (by simp only [isTalking, hagenda])
    exact .leaving rfl htold rfl

theorem tells_begin (start : σ) (line : ℓ) (now : Nat) :
    Tells start (begin start (Tapped.tap line) now) :=
  .playing rfl .begun rfl

/-- A session tells what its dialogue tells, however often it has stepped. -/
theorem tells_steps (pacing : Pacing) (start : σ) (line : ℓ) (count : Nat) :
    Tells start ((begin start (Tapped.tap line) 0).steps pacing count) :=
  steps_induction (Tells start) (fun h hmove => h.move hmove) (tells_begin start line 0) count

end Run

/-- What passes over the line of a session, with what it was about to send, is the
beginning of the session's tale. -/
theorem Program.exists_told {ℓ : Type} [Line ℓ] (options : Options) (limit : Option Nat)
    (patience : Nat) (line : ℓ) :
    ∃ (g : Game) (left : Script), Told (Game.start options) g
      (Program.game.log options limit patience line ++ left.exchanges) := by
  obtain ⟨count, hcount⟩ := Run.exists_steps_of_runUntil options.pacing limit
    ((patience + 1) * Dialogue.stride Game)
    (Run.begin (Game.start options) (Tapped.tap line) 0)
  have htells := Run.tells_steps options.pacing (Game.start options) line count
  rw [← hcount] at htells
  exact htells.exists_told

end TerminalHost
