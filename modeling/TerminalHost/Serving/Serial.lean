import TerminalHost.Line.Stream
import TerminalHost.Session.Outcome
import TerminalHost.Settings

/-!
# Serving one line

In serial mode there is one line and one session.  The call that serves the line returns
when the session ends or when the shutdown comes, whichever is first.  A shutdown cuts the
session off wherever it is; the line is then dropped as it stands, without being closed.
-/

namespace TerminalHost

/-- When a call returned and with which report; without one if the shutdown came first. -/
structure Returned where
  time : Nat
  report : Option Report
deriving DecidableEq, Repr

structure Served (ℓ : Type) where
  line : ℓ
  journal : List Entry
  /-- Nothing if the call never returns. -/
  returned : Option Returned

/-- How a call returns that waits for a session and for a shutdown. -/
def Outcome.returned {ℓ : Type} (outcome : Outcome ℓ) (shutdown : Option Nat) :
    Option Returned :=
  match outcome.report with
  | some report => some ⟨outcome.now, some report⟩
  | none => shutdown.map fun time => ⟨time, none⟩

/-- A session on an open line until its end or the shutdown, with the report in the
journal. -/
def serveLine {ℓ : Type} [Line ℓ] (program : Program) (session : SessionSettings)
    (seed : UInt32) (shutdown : Option Nat) (patience : Nat) (line : ℓ) : Served ℓ :=
  let outcome := program.run (session.options seed) shutdown patience line
  { line := outcome.line
    journal := outcome.journal ++ outcome.report.elim [] Report.entries
    returned := outcome.returned shutdown }

def SerialSettings.line {β : Type} (serial : SerialSettings) (stream : β) : StreamLine β where
  stream := stream
  isOpen := true
  name := serial.path
  sendDelay := serial.sendDelay
  readTimeout := some serial.readTimeout

def runSerial {β : Type} [ByteStream β] (serial : SerialSettings) (program : Program)
    (session : SessionSettings) (seed : UInt32) (shutdown : Option Nat) (patience : Nat)
    (opened : Except OpenError β) : Except StartError (Served (StreamLine β)) :=
  match opened with
  | .error error => .error (.openPort error)
  | .ok stream =>
    let served := serveLine program session seed shutdown patience (serial.line stream)
    let ending := match served.returned with
      | some ⟨_, none⟩ => [Entry.portInterrupted serial.path]
      | _ => []
    .ok { served with
      journal := .portOpened serial.path serial.baudRate :: served.journal ++ ending }

end TerminalHost
