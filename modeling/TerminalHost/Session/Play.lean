import TerminalHost.Line.Basic
import TerminalHost.Pacing
import TerminalHost.Script

/-!
# Playing a script

A script by itself can be played on a line, outside any session: every send is one
send on the line, pauses are as long as the pacing says, and the first loss ends it.
Like a run, the playing can be cut off at a time; what begins later is not done.
-/

namespace TerminalHost

def isPast (limit : Option Nat) (now : Nat) : Bool :=
  match limit with
  | some limit => limit < now
  | none => false

@[simp] theorem isPast_none (now : Nat) : isPast none now = false := rfl

/-- The line after a script was played on it from a time on, with the time at which
that was over and how it ended, unless it was cut off at the limit. -/
def Script.playOn {ℓ : Type} [Line ℓ] (pacing : Pacing) (limit : Option Nat) :
    Script → ℓ → Nat → ℓ × Option (Answer Unit)
  | [], line, now => (line, if isPast limit now then none else some ⟨now, .ok ()⟩)
  | .send parts :: rest, line, now =>
    if isPast limit now then (line, none)
    else
      match Line.send line now (Step.chunk parts) with
      | (line, ⟨time, .ok ()⟩) => playOn pacing limit rest line time
      | (line, ⟨time, .error loss⟩) => (line, some ⟨time, .error loss⟩)
  | .pause length :: rest, line, now =>
    if isPast limit now then (line, none)
    else playOn pacing limit rest line (now + (pacing.pause length).ticks)

end TerminalHost
