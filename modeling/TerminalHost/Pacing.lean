import TerminalHost.Duration

/-!
# Pacing

A real terminal absorbs output slowly, and a reader needs time to look at a
screen.  Both waits are settings of a run: the delay after every send belongs to
the line, the pauses between screens belong to the session and can be switched
off as a whole.
-/

namespace TerminalHost

structure Pacing where
  sendDelay : Duration
  pauses : Bool
deriving DecidableEq, Repr

namespace Pacing

/-- The delay after a send unless another one is asked for, in milliseconds. -/
def usualSendDelay : Nat := 10

def instant : Pacing := ⟨Duration.zero, false⟩

def usual : Pacing := ⟨Duration.ofMillis usualSendDelay, true⟩

def pause (pacing : Pacing) (requested : Duration) : Duration :=
  if pacing.pauses then requested else Duration.zero

end Pacing

end TerminalHost
