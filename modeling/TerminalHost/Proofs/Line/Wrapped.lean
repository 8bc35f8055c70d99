import TerminalHost.Proofs.Session.Steps

/-!
# Lines inside lines

A line can be put into another one that passes every call on to it and keeps what it
likes about the calls.  A session cannot tell the two apart, so whatever such a line
keeps is about the session on the line inside.
-/

namespace TerminalHost

/-- Every call on a line is the same call on the line `bare` inside it. -/
structure Line.Wraps {κ ℓ : Type} [Line κ] [Line ℓ] (bare : κ → ℓ) : Prop where
  peer (line : κ) : Line.peer line = Line.peer (bare line)
  send (line : κ) (now : Nat) (octets : Bytes) :
    Line.send (bare line) now octets
      = (bare (Line.send line now octets).1, (Line.send line now octets).2)
  receive (line : κ) (now most : Nat) :
    Line.receive (bare line) now most
      = (bare (Line.receive line now most).1, (Line.receive line now most).2)
  close (line : κ) : Line.close (bare line) = (bare (Line.close line).1, (Line.close line).2)

namespace Run

variable {σ κ ℓ : Type}

def unwrap (bare : κ → ℓ) (r : Run σ κ) : Run σ ℓ :=
  ⟨r.state, r.agenda, bare r.line, r.now, r.latest⟩

variable [Dialogue σ] [Line κ] [Line ℓ] {bare : κ → ℓ}

theorem Move.unwrap (hwraps : Line.Wraps bare) {pacing : Pacing} {r s : Run σ κ}
    (h : Move pacing r s) : Move pacing (r.unwrap bare) (s.unwrap bare) := by
  have hsend {octets : Bytes} {line : κ} {answer : Answer Unit}
      (h : Line.send r.line r.now octets = (line, answer)) :
      Line.send (bare r.line) r.now octets = (bare line, answer) := by
    rw [hwraps.send, h]
  have hreceive {line : κ} {answer : Option (Answer Bytes)}
      (h : Line.receive r.line r.now 1 = (line, answer)) :
      Line.receive (bare r.line) r.now 1 = (bare line, answer) := by
    rw [hwraps.receive, h]
  cases h with
  | sent hagenda h => exact .sent hagenda (hsend h)
  | unsent hagenda h => exact .unsent hagenda (hsend h)
  | paused hagenda => exact .paused hagenda
  | went hagenda hcue => exact .went hagenda hcue
  | heard hagenda hcue h => exact .heard hagenda hcue (hreceive h)
  | unheard hagenda hcue h => exact .unheard hagenda hcue (hreceive h)
  | unanswered hagenda hcue h => exact .unanswered hagenda hcue (hreceive h)
  | ended hagenda hcue => exact .ended hagenda hcue
  | turned hagenda => exact .turned hagenda
  | @left loss hagenda =>
    have hclose : Line.close (bare r.line)
        = (bare (Line.close r.line).1, (Line.close r.line).2) := hwraps.close r.line
    have hleft : Move pacing (r.unwrap bare) _ := .left hagenda
    simp only [Run.unwrap, hclose] at hleft
    exact hleft

theorem unwrap_step (hwraps : Line.Wraps bare) (pacing : Pacing) (r : Run σ κ) :
    (r.step pacing).unwrap bare = (r.unwrap bare).step pacing := by
  cases hover : r.isOver with
  | true => rw [step_of_isOver pacing r hover, step_of_isOver pacing (r.unwrap bare) hover]
  | false => exact ((move_step pacing r hover).unwrap hwraps).step_eq.symm

theorem unwrap_runUntil (hwraps : Line.Wraps bare) (pacing : Pacing) (limit : Option Nat)
    (fuel : Nat) (r : Run σ κ) :
    (r.runUntil pacing limit fuel).unwrap bare
      = (r.unwrap bare).runUntil pacing limit fuel := by
  induction fuel generalizing r with
  | zero => rfl
  | succ fuel ih =>
    rw [runUntil, runUntil]
    by_cases hstop : (r.isOver || isPast limit r.now) = true
    · rw [if_pos hstop, if_pos (by exact hstop)]
    · rw [if_neg hstop, if_neg (by exact hstop), ih, unwrap_step hwraps]

theorem unwrap_begin (hwraps : Line.Wraps bare) (state : σ) (line : κ) (now : Nat) :
    (begin state line now).unwrap bare = begin state (bare line) now := by
  simp only [begin, unwrap, hwraps.peer]

end Run

variable {κ ℓ : Type} [Line κ] [Line ℓ] {bare : κ → ℓ}

theorem Program.run_unwrap (hwraps : Line.Wraps bare) (program : Program)
    (options : Options) (limit : Option Nat) (patience : Nat) (line : κ) :
    program.run options limit patience (bare line)
      = { program.run options limit patience line with
          line := bare (program.run options limit patience line).line } := by
  cases program with
  | game =>
    simp only [run, ← Run.unwrap_begin hwraps, Run.runOut, ← Run.unwrap_runUntil hwraps]
    rfl
  | demo =>
    simp only [run, ← Run.unwrap_begin hwraps, Run.runOut, ← Run.unwrap_runUntil hwraps]
    rfl

end TerminalHost
