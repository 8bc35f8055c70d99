import TerminalHost.Demo.Screens
import TerminalHost.Session.Dialogue

/-!
# The demonstration

The demonstration plays its welcome, every act with the notice after it, and the
summary.  It never listens.  An act counts as given when its own script has been
played, whatever becomes of the notice after it.
-/

namespace TerminalHost

namespace Demo

inductive Scene where
  | welcome
  | act (act : Act)
  | intermission
  | summary
  | closed
deriving DecidableEq, Repr

def Scene.screen : Scene → Script
  | .welcome => Demo.welcome
  | .act current => Demo.screen current
  | .intermission => Demo.intermission
  | .summary => Demo.summary
  | .closed => []

end Demo

structure Demo where
  bill : Playbill
  scene : Demo.Scene
deriving DecidableEq, Repr

namespace Demo

def start : Demo := ⟨Playbill.start, .welcome⟩

def goOn (d : Demo) : Demo :=
  { d with scene := match d.bill.next? with
      | some act => .act act
      | none => .summary }

def cue (d : Demo) : Cue Demo :=
  match d.scene with
  | .welcome => .go d.goOn
  | .act _ => .go { bill := d.bill.advance, scene := .intermission }
  | .intermission => .go d.goOn
  | .summary => .go { d with scene := .closed }
  | .closed => .over

def noted (_ after : Demo) : List Entry :=
  match after.scene with
  | .act act => [.actStarted act]
  | _ => []

def closing (d : Demo) : Option Loss → Entry
  | none => .demoFinished
  | some loss => .demoLost d.bill.given.length loss

def report (d : Demo) (loss : Option Loss) : Report := .demo d.bill.given loss

instance : Dialogue Demo where
  program := .demo
  screen d := d.scene.screen
  cue := cue
  noted := noted
  closing := closing
  report := report
  stride := 1024

end Demo

end TerminalHost
