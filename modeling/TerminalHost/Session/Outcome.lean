import TerminalHost.Demo.Scene
import TerminalHost.Game.Scene
import TerminalHost.Session.Run

/-!
# Running a program on a line

A session of either program, seen from outside: what became of the line, what was
noted, when it was over, and the report if the program came to an end in time.
-/

namespace TerminalHost

structure Outcome (ℓ : Type) where
  line : ℓ
  now : Nat
  journal : List Entry
  /-- Nothing if the session was still running when it was cut off. -/
  report : Option Report

def Run.outcome {σ ℓ : Type} [Dialogue σ] (r : Run σ ℓ) : Outcome ℓ :=
  ⟨r.line, r.now, r.journal, r.report?⟩

/-- A session on a line, cut off at `limit`, where the line answers at most `patience`
receives before it is lost.  The demonstration only uses the pacing. -/
def Program.run {ℓ : Type} [Line ℓ] (program : Program) (options : Options)
    (limit : Option Nat) (patience : Nat) (line : ℓ) : Outcome ℓ :=
  match program with
  | .game =>
    ((Run.begin (Game.start options) line 0).runOut options.pacing limit patience).outcome
  | .demo =>
    ((Run.begin Demo.start line 0).runOut options.pacing limit patience).outcome

end TerminalHost
